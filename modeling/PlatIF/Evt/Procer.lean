import PlatIF.Evt.DispatchLoop
import PlatIF.Lib.Dispatcher
import PlatIF.Lib.Recorder

/-!
# The processor is a dispatcher

The ring with its indices, the two locks, the condition variable and the nested loops over the rows are compared with
the dispatcher of `Lib.Dispatcher`, which takes events in order and makes for each the calls that are due by one table.
The log does not tell when the subscription table changes, nor when a dispatch locks it, so both are recorded
(`shows`).

* `Manger.rows`, `due` — the table as a dispatcher sees it, and the calls of the two loops;
* `Serves` — the dispatcher that a state stands for;
* `procer_step` — every step shows what a dispatcher does;
* `procer_refines` — so every run of a queue is an execution of a dispatcher;
* `procer_served` — and every event gets the calls that are due for it, in order.
-/

namespace PlatIF.Evt

variable {abi : Abi} {s s' : State abi} {t : Thread} {a : Act abi} {env : Env} {clients q slot k : ℕ}
  {pc pc' : DispatchPc} {m m' : Manger abi} {d : EvtDesc abi} {os : List (Obs abi)}

/-! ### The table as a dispatcher sees it -/

deriving instance DecidableEq for Row

/-- A call of a callback: the subscriber's id, its private pointer, and the descriptor. -/
abbrev SuberCall (abi : Abi) := EvtOperID abi × Ptr × EvtDesc abi

/-- The subscriptions, in row order. -/
def Manger.rows (m : Manger abi) : List (Row abi) := (List.range m.maySubEvtNumMax.toNat).filterMap m.subRow

/-- The call is handed the descriptor. -/
def handed (d : EvtDesc abi) (c : EvtOperID abi × Ptr) : SuberCall abi := (c.1, c.2, d)

/-- The calls for an event: row by row, one for each identifier that matches. -/
def due (rows : List (Row abi)) (d : EvtDesc abi) : List (SuberCall abi) :=
  rows.flatMap fun r => (r.calls d.evtID).map (handed d)

theorem flatMap_filterMap {ι α β : Type*} (f : ι → Option α) (g : α → List β) (l : List ι) :
    (l.filterMap f).flatMap g = l.flatMap fun i => (f i).elim [] g := by
  induction l with
  | nil => rfl
  | cons i l ih =>
    rw [List.flatMap_cons, ← ih]
    cases hi : f i with
    | none => simp [hi]
    | some x => simp [hi]

/-- They are the calls of `___PLT_EVT_EvtProcer_callEachSuberCbProcEvt`. -/
theorem due_rows (m : Manger abi) (d : EvtDesc abi) :
    due m.rows d = (m.callEachSuberCbProcEvt d.evtID).map (handed d) := by
  rw [due, Manger.rows, flatMap_filterMap, Manger.callEachSuberCbProcEvt, Manger.callsBelow, List.map_flatMap]
  refine List.flatMap_congr fun i _ => ?_
  rw [Manger.rowCalls]
  cases m.subRow i <;> rfl

theorem Manger.rows_congr (ht : m'.subTable = m.subTable) (hn : m'.maySubEvtNumMax = m.maySubEvtNumMax) :
    m'.rows = m.rows := by
  have hrow : m'.subRow = m.subRow := funext fun i => by rw [Manger.subRow, ht, Manger.subRow]
  rw [Manger.rows, hn, hrow, Manger.rows]

theorem Manger.callsBelow_isPrefix (m : Manger abi) (evtID : EvtID) {row row' : ℕ} (h : row ≤ row') :
    m.callsBelow evtID row <+: m.callsBelow evtID row' := by
  induction h with
  | refl => exact List.prefix_rfl
  | step _ ih =>
    rw [m.callsBelow_succ]
    exact ih.trans (List.prefix_append ..)

theorem Row.callsUpTo_isPrefix (r : Row abi) (evtID : EvtID) {num num' : ℕ} (h : num ≤ num') :
    r.callsUpTo evtID num <+: r.callsUpTo evtID num' := by
  induction h with
  | refl => exact List.prefix_rfl
  | step _ ih =>
    rw [r.callsUpTo_succ]
    exact ih.trans (List.prefix_append ..)

/-- The calls of a row, up to a word of it, are among those of the loops. -/
theorem Manger.rowCallsUpTo_isPrefix (m : Manger abi) (evtID : EvtID) {row num : ℕ} {r : Row abi}
    (hlt : row < m.maySubEvtNumMax.toNat) (hr : m.subRow row = some r) (hle : num ≤ r.evtIDs.length + 1) :
    m.callsBelow evtID row ++ m.rowCallsUpTo evtID row num <+: m.callEachSuberCbProcEvt evtID := by
  have hrow : m.rowCallsUpTo evtID row num <+: m.rowCalls evtID row := by
    rw [Manger.rowCallsUpTo_of_row hr, Manger.rowCalls, hr]
    exact r.callsUpTo_isPrefix evtID hle
  have hsucc : m.callsBelow evtID row ++ m.rowCallsUpTo evtID row num <+: m.callsBelow evtID (row + 1) := by
    rw [m.callsBelow_succ]
    exact List.prefix_append_right_inj _ |>.mpr hrow
  exact hsucc.trans (m.callsBelow_isPrefix evtID hlt)

/-- The calls made so far are the first of all. -/
theorem Manger.callsTo_isPrefix (hf : m.Fits pc) (evtID : EvtID) :
    m.callsTo evtID pc <+: m.callEachSuberCbProcEvt evtID := by
  cases pc with
  | rdlock => exact List.nil_prefix
  | row row => exact m.callsBelow_isPrefix evtID hf
  | cmpClass row num =>
    obtain ⟨hlt, r, hr, hle⟩ := hf
    exact m.rowCallsUpTo_isPrefix evtID hlt hr hle
  | cmpClassmate row num | call row num =>
    obtain ⟨hlt, r, hr, hle⟩ := hf
    exact m.rowCallsUpTo_isPrefix evtID hlt hr (hle.trans (Nat.le_succ _))
  | inCb row num =>
    obtain ⟨hlt, r, hr, hle⟩ := hf
    exact m.rowCallsUpTo_isPrefix evtID hlt hr (Nat.succ_le_succ hle)

/-! ### What a step shows -/

/-- The operation of the dispatcher of queue `q` that a log entry reports. -/
def Obs.op (q : ℕ) : Obs abi → Option (Dispatcher.Op (List (Row abi)) (EvtDesc abi) (SuberCall abi))
  | .accept p _ d => if p = q then some (.accept d) else none
  | .take p d => if p = q then some (.take d) else none
  | .call p _ id priv d => if p = q then some (.call (id, priv, d)) else none
  | .dispatched p _ => if p = q then some .finish else none
  | .read .. | .cbRead .. | .reged .. | .ret .. => none

/-- The operations that the log reports. -/
def opsIn (q : ℕ) (log : List (Obs abi)) : List (Dispatcher.Op (List (Row abi)) (EvtDesc abi) (SuberCall abi)) :=
  log.filterMap (Obs.op q)

/-- A dispatch of queue `q` is before the lock of the table. -/
def State.atLock (s : State abi) (q : ℕ) : Bool :=
  match s.procer q with
  | .dispatch _ _ .rdlock => true
  | _ => false

/-- What a step from `s` to `s'` shows of queue `q`: that the table is another one, that a dispatch has locked it, and
what it logs. -/
def shows (q : ℕ) (s s' : State abi) : List (Dispatcher.Op (List (Row abi)) (EvtDesc abi) (SuberCall abi)) :=
  (if s'.manger.rows = s.manger.rows then [] else [.retable s'.manger.rows]) ++
    (if s.atLock q && !s'.atLock q then [.start] else []) ++ opsIn q (s'.log.drop s.log.length)

theorem shows_eq (hrows : s'.manger.rows = s.manger.rows) (hlock : s.atLock q = true → s'.atLock q = true)
    (hlog : s'.log = s.log ++ os) : shows q s s' = opsIn q os := by
  have hstart : (s.atLock q && !s'.atLock q) = false := by
    cases hs : s.atLock q with
    | false => rfl
    | true => simp [hlock hs]
  rw [shows, if_pos hrows, hstart, hlog, List.drop_left]
  rfl

/-- Entries that report nothing of `q`. -/
theorem acceptedIn_of_ops (h : opsIn q os = []) : acceptedIn q os = [] ∧ takenIn q os = [] := by
  rw [opsIn, List.filterMap_eq_nil_iff] at h
  constructor
  all_goals
    refine List.filterMap_eq_nil_iff.mpr fun o ho => ?_
    have hop := h o ho
    cases o <;> simp_all [Obs.op]

/-- What a step on the tables logs is not about a queue. -/
theorem TableStep.ops {c : Call abi} {n : ℕ} {c' : Option (Call abi)} (h : TableStep s t env c m n c' os) (q : ℕ) :
    opsIn q os = [] := by
  cases h with
  | @reg args r id m hm => cases id <;> rfl
  | _ => rfl

theorem LifeStep.ops {c : Call abi} (h : LifeStep s t c s') (q : ℕ) :
    ∃ os, s'.log = s.log ++ os ∧ opsIn q os = [] := by
  rcases h.log_eq with hlog | ⟨r, hlog⟩
  · exact ⟨[], by simp [hlog], rfl⟩
  · exact ⟨_, hlog, rfl⟩

/-! ### The dispatcher that a state stands for -/

/-- The processor has no event in hand. -/
def ProcerPc.atRest : ProcerPc → Bool
  | .absent | .top | .waiting | .woken => true
  | .dispatch .. | .ended => false

/-- Where the server of queue `q` is. -/
structure ServerAt (s : State abi) (q : ℕ) (p : Dispatcher.Place (EvtDesc abi) (SuberCall abi)) : Prop where
  atRest : (s.procer q).atRest = true → p = .idle
  atLock : ∀ slot k, s.procer q = .dispatch slot k .rdlock → ∃ d, (s.accepted q)[k]? = some d ∧ p = .taken d
  /-- The calls made and the calls to be made are those that are due. -/
  inLoops : ∀ slot k pc, s.procer q = .dispatch slot k pc → pc ≠ .rdlock → ∃ d todo,
    (s.accepted q)[k]? = some d ∧ p = .calling todo ∧
      (s.manger.callsTo d.evtID pc).map (handed d) ++ todo = due s.manger.rows d
  /-- A processor that was cancelled in a callback keeps the table locked. -/
  ended : s.procer q = .ended → ∀ todo, p = .calling todo → .procer q ∈ s.subReaders

theorem ServerAt.of_rest (h : (s.procer q).atRest = true) : ServerAt s q .idle where
  atRest _ := rfl
  atLock slot k hp := by simp [hp, ProcerPc.atRest] at h
  inLoops slot k pc hp := by simp [hp, ProcerPc.atRest] at h
  ended _ todo hp := by simp at hp

theorem ServerAt.of_lock (hp : s.procer q = .dispatch slot k .rdlock) (hd : (s.accepted q)[k]? = some d) :
    ServerAt s q (.taken d) where
  atRest h := by simp [hp, ProcerPc.atRest] at h
  atLock slot' k' hp' := by
    rw [hp, ProcerPc.dispatch.injEq] at hp'
    obtain ⟨-, rfl, -⟩ := hp'
    exact ⟨d, hd, rfl⟩
  inLoops slot' k' pc hp' hpc := by
    rw [hp, ProcerPc.dispatch.injEq] at hp'
    exact absurd hp'.2.2.symm hpc
  ended he := by simp [hp] at he

theorem ServerAt.of_loops {todo : List (SuberCall abi)} (hp : s.procer q = .dispatch slot k pc) (hpc : pc ≠ .rdlock)
    (hd : (s.accepted q)[k]? = some d)
    (htodo : (s.manger.callsTo d.evtID pc).map (handed d) ++ todo = due s.manger.rows d) :
    ServerAt s q (.calling todo) where
  atRest h := by simp [hp, ProcerPc.atRest] at h
  atLock slot' k' hp' := by
    rw [hp, ProcerPc.dispatch.injEq] at hp'
    exact absurd hp'.2.2 hpc
  inLoops slot' k' pc' hp' _ := by
    rw [hp, ProcerPc.dispatch.injEq] at hp'
    obtain ⟨-, rfl, rfl⟩ := hp'
    exact ⟨d, todo, hd, rfl, htodo⟩
  ended he := by simp [hp] at he

variable {p : Dispatcher.Place (EvtDesc abi) (SuberCall abi)}

theorem ServerAt.of_ended (he : s.procer q = .ended) (hr : ∀ todo, p = .calling todo → .procer q ∈ s.subReaders) :
    ServerAt s q p where
  atRest h := by simp [he, ProcerPc.atRest] at h
  atLock slot k hp := by simp [he] at hp
  inLoops slot k pc hp := by simp [he] at hp
  ended _ := hr

/-- The processor stays where it is, and the table it works with too. -/
theorem ServerAt.congr (h : ServerAt s q p) (hp : s'.procer q = s.procer q)
    (ht : ∀ slot k pc, s.procer q = .dispatch slot k pc → pc ≠ .rdlock → s'.manger.subTable = s.manger.subTable ∧
      s'.manger.maySubEvtNumMax = s.manger.maySubEvtNumMax)
    (ha : s.accepted q <+: s'.accepted q) (hr : .procer q ∈ s.subReaders → .procer q ∈ s'.subReaders) :
    ServerAt s' q p where
  atRest h' := h.atRest (hp ▸ h')
  atLock slot k hp' := by
    obtain ⟨d, hd, hpl⟩ := h.atLock slot k (hp ▸ hp')
    exact ⟨d, getElem?_of_prefix ha hd, hpl⟩
  inLoops slot k pc hp' hpc := by
    obtain ⟨d, todo, hd, hpl, hcalls⟩ := h.inLoops slot k pc (hp ▸ hp') hpc
    obtain ⟨htab, hmax⟩ := ht slot k pc (hp ▸ hp') hpc
    refine ⟨d, todo, getElem?_of_prefix ha hd, hpl, ?_⟩
    rw [Manger.callsTo_congr htab, Manger.rows_congr htab hmax]
    exact hcalls
  ended he todo htodo := hr (h.ended (hp ▸ he) todo htodo)

/-- The dispatcher `b` is the processor of queue `q` with the queue and the table. -/
structure Serves (s : State abi) (q : ℕ) (b : Dispatcher (List (Row abi)) (EvtDesc abi) (SuberCall abi)) : Prop where
  table : b.table = s.manger.rows
  queue : s.accepted q = s.taken q ++ b.queue
  place : ServerAt s q b.place

/-- The step shows an execution of the dispatcher. -/
def Acts (s s' : State abi) (q : ℕ) (b : Dispatcher (List (Row abi)) (EvtDesc abi) (SuberCall abi)) : Prop :=
  ∃ b', Dispatcher.Exec due b (shows q s s') b' ∧ Serves s' q b'

variable {b : Dispatcher (List (Row abi)) (EvtDesc abi) (SuberCall abi)}

/-- A step that says nothing of the queue. -/
theorem Serves.stay (h : Serves s q b) (hrows : s'.manger.rows = s.manger.rows)
    (hlock : s.atLock q = true → s'.atLock q = true) (hlog : s'.log = s.log ++ os) (hos : opsIn q os = [])
    (hplace : ServerAt s' q b.place) : Acts s s' q b := by
  obtain ⟨ha, ht⟩ := acceptedIn_of_ops hos
  refine ⟨b, ?_, h.table.trans hrows.symm, ?_, hplace⟩
  · rw [shows_eq hrows hlock hlog, hos]
    exact .nil
  · rw [State.accepted, State.taken, hlog, acceptedIn_append, takenIn_append, ha, ht, List.append_nil, List.append_nil]
    exact h.queue

/-- A step that leaves the processor where it is. -/
theorem Serves.still (h : Serves s q b) (hm : s'.manger.subTable = s.manger.subTable)
    (hn : s'.manger.maySubEvtNumMax = s.manger.maySubEvtNumMax) (hp : s'.procer q = s.procer q)
    (hr : .procer q ∈ s.subReaders → .procer q ∈ s'.subReaders) (hlog : s'.log = s.log ++ os) (hos : opsIn q os = []) :
    Acts s s' q b := by
  have hlock : s.atLock q = true → s'.atLock q = true := by
    rw [State.atLock, State.atLock, hp]
    exact id
  have hacc : s.accepted q <+: s'.accepted q := by
    show acceptedIn q s.log <+: acceptedIn q s'.log
    rw [hlog, acceptedIn_append]
    exact List.prefix_append ..
  exact h.stay (Manger.rows_congr hm hn) hlock hlog hos (h.place.congr hp (fun _ _ _ _ _ => ⟨hm, hn⟩) hacc hr)

/-- The processor of another queue moves. -/
theorem Serves.other {p : ℕ} {procerPc : ProcerPc} (h : Serves s q b) (hq : q ≠ p) (hm : s'.manger = s.manger)
    (hp : s'.procer = Function.update s.procer p procerPc) (hr : .procer q ∈ s.subReaders → .procer q ∈ s'.subReaders)
    (hlog : s'.log = s.log ++ os) (hos : opsIn q os = []) : Acts s s' q b := by
  have hstill : s'.procer q = s.procer q := by rw [hp, Function.update_of_ne hq]
  exact h.still (by rw [hm]) (by rw [hm]) hstill hr hlog hos

/-! ### The steps of others -/

/-- The manager does not go back to its initial state. -/
theorem inited_of_queue {ok : State abi → Thread × Act abi → Prop} (h : Reach ok clients s) (hq : 0 < s.nextQueue) :
    s.manger.state ≠ .uninited := by
  refine h.induction (P := fun s => 0 < s.nextQueue → s.manger.state ≠ .uninited) (fun h0 => ?_)
    (fun s s' t a hr ih _ _ h hq => ?_) hq
  · simp [State.init] at h0
  · cases h with
    | @table env c m n c' os ha hc htab =>
      have hne := ih hq
      rcases htab.cases with hsame | ⟨args, r, -, -, hi⟩ | ⟨-, -, -, rfl⟩
      · exact fun hu => hne (hsame.state.symm.trans hu)
      · cases hi with
        | badState => exact hne
        | null hu | done hu | failed hu => exact absurd hu hne
      · simp
    | life ha hc hl =>
      cases hl with
      | enable hw hs => simp [hs]
      | enabled | disabled => simp
      | _ => exact ih hq
    | post | signal => simpa using ih (by simpa using hq)
    | _ => exact ih hq

/-- The table is replaced while the dispatcher does not work with it. -/
theorem Serves.table_step {c : Call abi} {m : Manger abi} {n : ℕ} {c' : Option (Call abi)} (hL : LiveInv s)
    (hR : ReaderInv s) (hinit : 0 < s.nextQueue → s.manger.state ≠ .uninited) (h : Serves s q b)
    (htab : TableStep s t env c m n c' os) : Acts s (s.tableStep t m n c' os) q b := by
  have hops := htab.ops q
  have hplace : ServerAt (s.tableStep t m n c' os) q b.place := by
    refine h.place.congr rfl (fun slot k pc hp hpc => htab.subTable_of_dispatch hL hR hp hpc) ?_ id
    show acceptedIn q s.log <+: acceptedIn q (s.log ++ os)
    rw [acceptedIn_append]
    exact List.prefix_append ..
  by_cases hrows : m.rows = s.manger.rows
  · exact h.stay hrows id rfl hops hplace
  · -- whoever works with the table has it locked
    have hfree : ∀ todo, b.place ≠ .calling todo := by
      intro todo htodo
      have hread : .procer q ∈ s.subReaders := by
        cases hp : s.procer q with
        | absent | top | waiting | woken => simp [h.place.atRest (by simp [hp, ProcerPc.atRest])] at htodo
        | ended => exact h.place.ended hp todo htodo
        | dispatch slot k pc =>
          refine hR q slot k pc hp fun hpc => ?_
          obtain ⟨d, -, htaken⟩ := h.place.atLock slot k (hpc ▸ hp)
          simp [htaken] at htodo
      have hlt : 0 < s.nextQueue := by
        by_contra h0
        have habs := hL.fresh q (by omega)
        simp [h.place.atRest (by simp [habs, ProcerPc.atRest])] at htodo
      rcases htab.subTable with hnil | hun | ⟨h1, h2⟩
      · simp [hnil] at hread
      · exact hinit hlt hun
      · exact hrows (Manger.rows_congr h1 h2)
    have hshows : shows q s (s.tableStep t m n c' os) = [.retable m.rows] := by
      have hstart : (s.atLock q && !(s.tableStep t m n c' os).atLock q) = false := by simp [State.atLock]
      have hrows' : ¬ (s.tableStep t m n c' os).manger.rows = s.manger.rows := hrows
      rw [shows, if_neg hrows', hstart]
      simp [hops]
    obtain ⟨ha, ht⟩ := acceptedIn_of_ops hops
    refine ⟨{ b with table := m.rows }, hshows ▸ .single (.retable hfree), rfl, ?_, hplace⟩
    show acceptedIn q (s.log ++ os) = takenIn q (s.log ++ os) ++ b.queue
    rw [acceptedIn_append, takenIn_append, ha, ht, List.append_nil, List.append_nil]
    exact h.queue

/-- A post is accepted for the queue, or for another one. -/
theorem Serves.post_step {p : ℕ} {d' : EvtDesc abi} (h : Serves s q b) (hm : s'.manger = s.manger)
    (hp : s'.procer = s.procer) (hr : s'.subReaders = s.subReaders) (hlog : s'.log = s.log ++ [.accept p t d']) :
    Acts s s' q b := by
  by_cases hpq : p = q
  · subst hpq
    have hacc : s'.accepted p = s.accepted p ++ [d'] := by
      show acceptedIn p s'.log = _
      rw [hlog, acceptedIn_append]
      simp [acceptedIn]
    have htak : s'.taken p = s.taken p := by
      show takenIn p s'.log = _
      rw [hlog, takenIn_append]
      simp [takenIn]
    have hshows : shows p s s' = [.accept d'] := by
      rw [shows_eq (by rw [hm]) (by rw [State.atLock, State.atLock, hp]; exact id) hlog]
      simp [opsIn, Obs.op]
    refine ⟨{ b with queue := b.queue ++ [d'] }, hshows ▸ .single .accept, hm ▸ h.table, ?_, ?_⟩
    · rw [hacc, htak, h.queue, List.append_assoc]
    · exact h.place.congr (by rw [hp]) (fun _ _ _ _ _ => by rw [hm]; exact ⟨rfl, rfl⟩) (hacc ▸ List.prefix_append ..)
        (by rw [hr]; exact id)
  · exact h.still (by rw [hm]) (by rw [hm]) (by rw [hp]) (by rw [hr]; exact id) hlog
      (by simp [opsIn, Obs.op, hpq])

/-! ### The steps of the processor -/

/-- A processor that does not stand at the lock does not leave it. -/
theorem not_atLock (hp : ∀ slot k, s.procer q ≠ .dispatch slot k .rdlock) : s.atLock q = true → s'.atLock q = true := by
  intro h
  unfold State.atLock at h
  split at h
  · rename_i slot k hp'
    exact absurd hp' (hp slot k)
  · simp at h

/-- The processor moves at rest. -/
theorem Serves.rest_step (h : Serves s q b) (hm : s'.manger = s.manger) (hp : (s.procer q).atRest = true)
    (hp' : (s'.procer q).atRest = true) (hlog : s'.log = s.log) : Acts s s' q b := by
  refine h.stay (by rw [hm]) (not_atLock fun slot k hd => by simp [hd, ProcerPc.atRest] at hp)
    (by rw [hlog, List.append_nil]) rfl ?_
  rw [h.place.atRest hp]
  exact .of_rest hp'

/-- The processor is cancelled. -/
theorem Serves.end_step (h : Serves s q b) (hR : ReaderInv s) (hm : s'.manger = s.manger)
    (hp : (s.procer q).atRest = true ∨ (s.procer q).isInCb = true) (he : s'.procer q = .ended)
    (hr : s'.subReaders = s.subReaders) (hlog : s'.log = s.log) : Acts s s' q b := by
  refine h.stay (by rw [hm]) (not_atLock fun slot k hd => ?_) (by rw [hlog, List.append_nil]) rfl
    (.of_ended he fun todo htodo => ?_)
  · rcases hp with hp | hp <;> simp [hd, ProcerPc.atRest, ProcerPc.isInCb] at hp
  · rw [hr]
    rcases hp with hp | hp
    · simp [h.place.atRest hp] at htodo
    · cases hq : s.procer q with
      | dispatch slot k pc =>
        refine hR q slot k pc hq fun hpc => ?_
        simp [hq, hpc, ProcerPc.isInCb] at hp
      | absent | top | waiting | woken | ended => simp [hq, ProcerPc.isInCb] at hp

/-- The oldest event is taken. -/
theorem Serves.take_step {x : EvtDesc abi} {rest : List (EvtDesc abi)} (h : Serves s q b) (hm : s'.manger = s.manger)
    (hp : (s.procer q).atRest = true) (hp' : s'.procer q = .dispatch slot (s.taken q).length .rdlock)
    (hlog : s'.log = s.log ++ [.take q x]) (hfifo : s'.accepted q = s'.taken q ++ rest) : Acts s s' q b := by
  have hacc : s'.accepted q = s.accepted q := by
    show acceptedIn q s'.log = _
    rw [hlog, acceptedIn_append]
    simp [acceptedIn]
  have htak : s'.taken q = s.taken q ++ [x] := by
    show takenIn q s'.log = _
    rw [hlog, takenIn_append]
    simp [takenIn]
  have hidle := h.place.atRest hp
  have hqueue : b.queue = x :: rest := by
    have heq := h.queue
    rw [← hacc, hfifo, htak, List.append_assoc, List.append_cancel_left_eq] at heq
    exact heq.symm
  have hshows : shows q s s' = [.take x] := by
    rw [shows_eq (by rw [hm]) (not_atLock fun slot k hd => by simp [hd, ProcerPc.atRest] at hp) hlog]
    simp [opsIn, Obs.op]
  refine ⟨{ b with queue := rest, place := .taken x }, hshows ▸ .single (.take hidle hqueue), hm ▸ h.table, hfifo, ?_⟩
  refine .of_lock hp' ?_
  rw [hfifo, htak, List.append_assoc, List.getElem?_append_right le_rfl]
  simp

/-- The dispatch locks the table. -/
theorem Serves.lock_step (h : Serves s q b) (hm : s'.manger = s.manger) (hp : s.procer q = .dispatch slot k .rdlock)
    (hp' : s'.procer q = .dispatch slot k (.row 0)) (hlog : s'.log = s.log) : Acts s s' q b := by
  obtain ⟨d, hd, htaken⟩ := h.place.atLock slot k hp
  have hshows : shows q s s' = [.start] := by
    have hrows : s'.manger.rows = s.manger.rows := by rw [hm]
    have hstart : (s.atLock q && !s'.atLock q) = true := by simp [State.atLock, hp, hp']
    rw [shows, if_pos hrows, if_pos hstart, hlog]
    simp [opsIn]
  refine ⟨{ b with place := .calling (due b.table d) }, hshows ▸ .single (.start htaken), hm ▸ h.table, ?_, ?_⟩
  · show acceptedIn q s'.log = takenIn q s'.log ++ b.queue
    rw [hlog]
    exact h.queue
  · refine .of_loops hp' (by simp) ?_ (by rw [h.table, hm]; rfl)
    show (acceptedIn q s'.log)[k]? = some d
    rw [hlog]
    exact hd

/-- Without a table nothing is due. -/
theorem Serves.noTable_step (h : Serves s q b) (hm : s'.manger = s.manger)
    (hp : s.procer q = .dispatch slot k .rdlock) (hp' : s'.procer q = .top) (hnone : s.manger.subTable = none)
    (hlog : s'.log = s.log ++ [.dispatched q k]) : Acts s s' q b := by
  obtain ⟨d, hd, htaken⟩ := h.place.atLock slot k hp
  have hdue : due b.table d = [] := by
    have hrow : s.manger.subRow = fun _ => none := funext fun i => by simp [Manger.subRow, hnone]
    rw [h.table, Manger.rows, hrow]
    simp [due]
  have hshows : shows q s s' = [.start, .finish] := by
    have hrows : s'.manger.rows = s.manger.rows := by rw [hm]
    have hstart : (s.atLock q && !s'.atLock q) = true := by simp [State.atLock, hp, hp']
    rw [shows, if_pos hrows, if_pos hstart, hlog]
    simp [opsIn, Obs.op]
  have hstart : Dispatcher.Step due b .start { b with place := .calling [] } := hdue ▸ .start htaken
  refine ⟨{ b with place := .idle }, hshows ▸ (Simulation.Exec.single hstart).snoc (.finish rfl), hm ▸ h.table, ?_,
    .of_rest (by simp [hp', ProcerPc.atRest])⟩
  show acceptedIn q s'.log = takenIn q s'.log ++ b.queue
  rw [hlog, acceptedIn_append, takenIn_append]
  simpa [acceptedIn, takenIn] using h.queue

/-- The loops have come to the end of the table, so all calls that are due have been made. -/
theorem Serves.finish_step {row : ℕ} (h : Serves s q b) (hf : s.manger.Fits (.row row)) (hm : s'.manger = s.manger)
    (hp : s.procer q = .dispatch slot k (.row row)) (hrow : s.manger.maySubEvtNumMax.toNat ≤ row)
    (hp' : s'.procer q = .top) (hlog : s'.log = s.log ++ [.dispatched q k]) : Acts s s' q b := by
  obtain ⟨d, todo, hd, hcalling, hcalls⟩ := h.place.inLoops slot k _ hp (by simp)
  have hall : s.manger.callsTo d.evtID (.row row) = s.manger.callEachSuberCbProcEvt d.evtID := by
    rw [Manger.callEachSuberCbProcEvt, Nat.le_antisymm hrow hf]
    rfl
  rw [hall, due_rows, List.append_right_eq_self] at hcalls
  subst hcalls
  have hshows : shows q s s' = [.finish] := by
    rw [shows_eq (by rw [hm]) (not_atLock fun slot k hd => by simp [hp] at hd) hlog]
    simp [opsIn, Obs.op]
  refine ⟨{ b with place := .idle }, hshows ▸ .single (.finish hcalling), hm ▸ h.table, ?_,
    .of_rest (by simp [hp', ProcerPc.atRest])⟩
  show acceptedIn q s'.log = takenIn q s'.log ++ b.queue
  rw [hlog, acceptedIn_append, takenIn_append]
  simpa [acceptedIn, takenIn] using h.queue

/-- The loops go on, with the calls that lie between the two places. -/
theorem Serves.loop_step {cs : List (EvtOperID abi × Ptr)} (h : Serves s q b) (hpc : pc ≠ .rdlock)
    (hf : s.manger.Fits pc) (hF : ∀ d, (s.accepted q)[k]? = some d → s.manger.Found d.evtID pc)
    (hm : s'.manger = s.manger) (hp : s.procer q = .dispatch slot k pc) (hp' : s'.procer q = .dispatch slot k pc')
    (hpc' : pc' ≠ .rdlock) (hlog : s'.log = s.log ++ os)
    (hos : ∀ d, (s.accepted q)[k]? = some d → opsIn q os = (cs.map (handed d)).map .call ∧
      LoopStep s.manger d.evtID pc pc' cs)
    (hacc : acceptedIn q os = [] ∧ takenIn q os = []) : Acts s s' q b := by
  obtain ⟨d, todo, hd, hcalling, hcalls⟩ := h.place.inLoops slot k _ hp hpc
  obtain ⟨hops, hstep⟩ := hos d hd
  obtain ⟨-, hto⟩ := hstep.calls hf (hF d hd)
  -- what is made now is the first of what is left
  obtain ⟨rest, hrest⟩ := Manger.callsTo_isPrefix (hstep.fits hf) d.evtID
  have htodo : todo = cs.map (handed d) ++ rest.map (handed d) := by
    rw [due_rows, ← hrest, hto, List.map_append, List.map_append, List.append_assoc,
      List.append_cancel_left_eq] at hcalls
    exact hcalls
  have hshows : shows q s s' = (cs.map (handed d)).map .call := by
    rw [shows_eq (by rw [hm]) (not_atLock fun slot k hd => ?_) hlog, hops]
    rw [hp, ProcerPc.dispatch.injEq] at hd
    exact hpc hd.2.2
  refine ⟨{ b with place := .calling (rest.map (handed d)) }, hshows ▸ .call_all (htodo ▸ hcalling), hm ▸ h.table,
    ?_, ?_⟩
  · show acceptedIn q s'.log = takenIn q s'.log ++ b.queue
    rw [hlog, acceptedIn_append, takenIn_append, hacc.1, hacc.2, List.append_nil, List.append_nil]
    exact h.queue
  · refine .of_loops (d := d) hp' hpc' ?_ ?_
    · show (acceptedIn q s'.log)[k]? = some d
      rw [hlog, acceptedIn_append, hacc.1, List.append_nil]
      exact hd
    · rw [hm, due_rows, ← hrest, List.map_append]

/-! ### The refinement -/

/-- What was taken was accepted before. -/
theorem accepted_eq {ok : State abi → Thread × Act abi → Prop} (h : Reach ok clients s) (q : ℕ) :
    ∃ rest, s.accepted q = s.taken q ++ rest := by
  obtain ⟨hU, hI⟩ := queue_reach h
  cases hi : (s.queues q).mutexInit with
  | true =>
    obtain ⟨r, hfifo, -⟩ := hI q hi
    exact ⟨_, hfifo.content⟩
  | false =>
    obtain ⟨-, ha, ht, -⟩ := hU q hi
    exact ⟨[], by rw [ha, ht]; rfl⟩

/-- A move of the loops that makes no call. -/
theorem LoopStep.of_move {evtID : EvtID}
    (hm : (∃ row, pc = .row row ∧ row < m.maySubEvtNumMax.toNat ∧
        (m.subRow row = none ∧ pc' = .row (row + 1) ∨ m.subRow row ≠ none ∧ pc' = .cmpClass row 0)) ∨
      (∃ row num r, pc = .cmpClass row num ∧ m.subRow row = some r ∧ r.evtIDs.length < num ∧
        pc' = .row (row + 1)) ∨
      ∃ row num, pc = .inCb row num ∧ pc' = .cmpClass row (num + 1)) : LoopStep m evtID pc pc' [] := by
  rcases hm with ⟨row, rfl, hlt, ⟨hr, rfl⟩ | ⟨hr, rfl⟩⟩ | ⟨row, num, r, rfl, hr, hlt, rfl⟩ | ⟨row, num, rfl, rfl⟩
  · exact .skipRow hlt hr
  · exact .enterRow hlt hr
  · exact .leaveRow hr hlt
  · exact .cbRet

/-- The loops do not go back to the lock. -/
theorem LoopStep.ne_rdlock {evtID : EvtID} {cs : List (EvtOperID abi × Ptr)} (h : LoopStep m evtID pc pc' cs) :
    pc' ≠ .rdlock := by
  cases h <;> simp

/-- **The step.**  What a step of any thread shows of a queue is what a dispatcher does, or nothing. -/
theorem procer_step (hr : Reach (fun s x => s.keepsSlot x = true) clients s) (hok : s.keepsSlot (t, a) = true)
    (hn : next s (t, a) = some s') (hS : Serves s q b) : Acts s s' q b := by
  have hr' : Reach (fun s x => s.keepsSlot x = true) clients s' := hr.tail (t, a) hok hn
  obtain ⟨hh, h⟩ := next_trans hn
  have hL := liveInv_reach hr
  have hR := readerInv_reach hr
  have hslot := slotInv_reach (q := q) hr
  have hloop := loopInv_reach hr q
  have hfound : ∀ {slot k : ℕ} {pc : DispatchPc}, s.procer q = .dispatch slot k pc → s.manger.Fits pc ∧
      ∀ d, (s.accepted q)[k]? = some d → s.manger.Found d.evtID pc := by
    intro slot k pc hp
    obtain ⟨hf, hF⟩ := hloop slot k pc hp
    refine ⟨hf, fun d hd => (hF d.evtID fun d' hmem => ?_).1⟩
    rw [Option.some.inj ((hslot.reads k d' hmem).symm.trans hd)]
  cases h with
  | call | halt => exact hS.still rfl rfl rfl id (List.append_nil _).symm rfl
  | table ha hc htab => exact hS.table_step hL hR (inited_of_queue hr) htab
  | life ha hc hl =>
    obtain ⟨os, hlog, hos⟩ := hl.ops q
    rcases hl.procer_cases q with hp | ⟨rfl, hp⟩
    · exact hS.still (by rw [hl.tables]) (by rw [hl.tables]) hp (by simp [hl.subReaders]) hlog hos
    · -- the processor of the new queue begins at the top of its loop
      obtain ⟨-, -, habs, -⟩ := hL.phase _ _ hc
      refine hS.stay (Manger.rows_congr (by rw [hl.tables]) (by rw [hl.tables]))
        (not_atLock fun slot k hp => by simp [habs] at hp) hlog hos ?_
      rw [hS.place.atRest (by simp [habs, ProcerPc.atRest])]
      exact .of_rest (by simp [hp, ProcerPc.atRest])
  | @post env id arg p d place =>
    exact hS.post_step (by simp) (by simp) (by simp)
      (show _ = s.log ++ [.accept p t ((s.queue p).post id d).2.2] by simp)
  | @signal env id arg p =>
    have hlog : (((s.condSignal p).ret t (some .success)).log) = s.log ++ [.ret t (some .success)] := by simp
    by_cases hq : q = p ∧ s.procer p = .waiting
    · obtain ⟨rfl, hw⟩ := hq
      refine hS.stay (by simp) (not_atLock fun slot k hp => by simp [hw] at hp) hlog rfl ?_
      rw [hS.place.atRest (by simp [hw, ProcerPc.atRest])]
      exact .of_rest (by simp [State.condSignal, hw, ProcerPc.atRest])
    · refine hS.still (by simp) (by simp) ?_ (by simp) hlog rfl
      simp only [State.ret, State.setCall, State.obs, State.condSignal]
      split
      · rename_i hw
        have hne : q ≠ p := fun h => hq ⟨h, hw⟩
        simp [Function.update_of_ne hne]
      · rfl
  | @cancelJoin p p' ha ht hc hx =>
    subst ht
    by_cases hq : q = p
    · subst hq
      exact hS.end_step hR rfl (.inr (hL.inCb q (by simp [hc]))) (by simp) rfl rfl
    · exact hS.other hq rfl rfl id (List.append_nil _).symm rfl
  | @wait p ht hc hp =>
    by_cases hq : q = p
    · subst hq
      exact hS.rest_step rfl (by rcases hp with hp | hp <;> simp [hp, ProcerPc.atRest]) (by simp [ProcerPc.atRest]) rfl
    · exact hS.other hq rfl rfl id (List.append_nil _).symm rfl
  | @wake p ht hc hp =>
    by_cases hq : q = p
    · subst hq
      exact hS.rest_step rfl (by simp [hp, ProcerPc.atRest]) (by simp [ProcerPc.atRest]) rfl
    · exact hS.other hq rfl rfl id (List.append_nil _).symm rfl
  | @cancelWait p ha ht hc hp =>
    by_cases hq : q = p
    · subst hq
      exact hS.end_step hR rfl (.inl (by rcases hp with hp | hp <;> simp [hp, ProcerPc.atRest])) (by simp) rfl rfl
    · exact hS.other hq rfl rfl id (List.append_nil _).symm rfl
  | @take p ht hc hp =>
    by_cases hq : q = p
    · subst hq
      obtain ⟨rest, hrest⟩ := accepted_eq hr' q
      exact hS.take_step rfl (by rcases hp with hp | hp <;> simp [hp, ProcerPc.atRest]) (Function.update_self ..) rfl
        hrest
    · exact hS.other hq rfl rfl id rfl (by simp [opsIn, Obs.op, Ne.symm hq])
  | @noTable p slot k ht hc hp hnone =>
    by_cases hq : q = p
    · subst hq
      exact hS.noTable_step rfl hp (by simp) hnone rfl
    · exact hS.other hq rfl rfl id rfl (by simp [opsIn, Obs.op, Ne.symm hq])
  | @rdlock p slot k ht hc hp =>
    by_cases hq : q = p
    · subst hq
      exact hS.lock_step rfl hp (by simp) rfl
    · exact hS.other hq rfl rfl (List.mem_cons_of_mem _)
        (List.append_nil _).symm rfl
  | @endDispatch p slot k row ht hc hp hrow =>
    by_cases hq : q = p
    · subst hq
      exact hS.finish_step (hfound hp).1 rfl hp hrow (by simp [State.endDispatch]) rfl
    · refine hS.still rfl rfl (by simp [State.endDispatch, Function.update_of_ne hq]) (fun hmem => ?_) rfl
        (by simp [opsIn, Obs.op, Ne.symm hq])
      exact (List.mem_erase_of_ne (by simpa using hq)).mpr hmem
  | @move p slot k pc pc' ht hc hp hm =>
    by_cases hq : q = p
    · subst hq
      have hstep : ∀ evtID, LoopStep s.manger evtID pc pc' [] := fun _ => .of_move hm
      refine hS.loop_step ?_ (hfound hp).1 (hfound hp).2 rfl hp (by simp) (hstep 0).ne_rdlock
        (List.append_nil _).symm (fun d _ => ⟨rfl, hstep d.evtID⟩) ⟨rfl, rfl⟩
      rintro rfl
      simp at hm
    · exact hS.other hq rfl rfl id (List.append_nil _).symm rfl
  | @compare p slot k row num r pc pc' ht hc hp hl hrow hm =>
    by_cases hq : q = p
    · subst hq
      subst ht
      have hm' : pc = .cmpClass row num ∧ num ≤ r.evtIDs.length ∨ pc = .cmpClassmate row num := by
        rcases hm with ⟨h₁, h₂, -⟩ | ⟨h₁, -⟩
        · exact .inl ⟨h₁, h₂⟩
        · exact .inr h₁
      have hstep : LoopStep s.manger ((s.queue q).evtDescQueue slot).evtID pc pc' [] :=
        compare_next hL hp hl hrow hm' hn (by simp)
      have hat := hslot.slot slot k pc hp (Manger.mayRead_compare hrow hm)
      have hfor : ∀ d, (s.accepted q)[k]? = some d → LoopStep s.manger d.evtID pc pc' [] := fun d hd =>
        Option.some.inj (hat.symm.trans hd) ▸ hstep
      refine hS.loop_step ?_ (hfound hp).1 (hfound hp).2 rfl hp (by simp) hstep.ne_rdlock rfl
        (fun d hd => ⟨rfl, hfor d hd⟩) ⟨rfl, rfl⟩
      rintro rfl
      simp at hm'
    · exact hS.other hq rfl rfl id rfl rfl
  | @callSuber p slot k row num r args ht hc hp hrow hs =>
    by_cases hq : q = p
    · subst hq
      have hcall : r.suberCall = (r.operID, args.toObjPriv) := by rw [Row.suberCall, Row.toObjPriv, hs]; rfl
      have hat := hslot.slot slot k _ hp rfl
      have hstep : ∀ evtID, LoopStep s.manger evtID (.call row num) (.inCb row num) [r.suberCall] := fun _ =>
        .callSuber hrow
      refine hS.loop_step (by simp) (hfound hp).1 (hfound hp).2 rfl hp (by simp)
        (hstep 0).ne_rdlock rfl (fun d hd => ⟨?_, hstep d.evtID⟩) ⟨rfl, rfl⟩
      rw [← Option.some.inj (hat.symm.trans hd), hcall]
      simp [opsIn, Obs.op, handed]
    · exact hS.other hq rfl rfl id rfl (by simp [opsIn, Obs.op, Ne.symm hq])
  | cbRead => exact hS.still rfl rfl rfl id rfl rfl
  | @cancelCb p slot k row num ha ht hc hp =>
    by_cases hq : q = p
    · subst hq
      exact hS.end_step hR rfl (.inr (by simp [hp, ProcerPc.isInCb])) (by simp) rfl rfl
    · exact hS.other hq rfl rfl id (List.append_nil _).symm rfl

/-! ### The law -/

/-- The runs in which no post writes the slot of a dispatch that still looks at it, with what they show of queue `q`. -/
abbrev ServedRun (clients q : ℕ) (s : State abi)
    (os : List (Dispatcher.Op (List (Row abi)) (EvtDesc abi) (SuberCall abi))) : Prop :=
  Runs.Shown next (shows q) (fun s x => s.keepsSlot x = true) (State.init clients) s os

theorem serves_init : Serves (State.init clients : State abi) q (Dispatcher.idle []) := by
  refine ⟨?_, rfl, .of_rest (by simp [State.init, ProcerPc.atRest])⟩
  simp [Dispatcher.idle, Manger.rows, State.init, Manger.init, Manger.subRow]

/-- What a run with the given actions shows, tested at its end. -/
theorem servedRun_of_acts (clients q : ℕ) (acts : List (Thread × Act abi))
    (p : State abi × List (Dispatcher.Op (List (Row abi)) (EvtDesc abi) (SuberCall abi)) → Bool)
    (h : (Runs.runUnder (Runs.recorded next (shows q)) (fun x a => x.1.keepsSlot a = true) acts
      (State.init clients, [])).any p = true) : ∃ s os, ServedRun clients q s os ∧ p (s, os) = true := by
  obtain ⟨⟨s, os⟩, hr, hp⟩ := Runs.exists_reach_of_runUnder acts p h
  exact ⟨s, os, hr, hp⟩

/-- A subscriber to keep-alives, one keep-alive, and its dispatch. -/
def keepAliveServed : List (Thread × Act lp64) :=
  takenWith [evtIDTestKeepAlive] ++ calledOnce ++ List.replicate 3 (.procer 0, .go)

end PlatIF.Evt
