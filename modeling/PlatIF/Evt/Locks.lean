import PlatIF.Evt.Stop

/-!
# What a stopped processor holds

A thread that is cancelled runs no unlock of its own: it ends with the locks it has at that point.  In
`pthread_cond_wait` this is the mutex of its queue, in a callback it is the subscription table.

* `HoldInv` — who holds the table and the mutexes between two steps;
* `stopped_holds_iff` — a call of `PLT_EVT_disableEvtManger` leaves no lock behind exactly when it stops no processor,
  and a table that is left locked stays so.
-/

namespace PlatIF.Evt

variable {abi : Abi} {s s' : State abi} {t u : Thread} {a : Act abi} {env : Env} {clients q : ℕ}
  {ok : State abi → Thread × Act abi → Prop}

/-- The dispatch has the subscription table locked. -/
def ProcerPc.reading : ProcerPc → Bool
  | .dispatch _ _ pc => pc != .rdlock
  | _ => false

theorem ProcerPc.reading_of_isInCb {pc : ProcerPc} (h : pc.isInCb = true) : pc.reading = true := by
  unfold ProcerPc.isInCb at h
  split at h
  · rfl
  · simp at h

/-- Who holds what between two steps: the table is held by dispatches and by processors that ended in a callback, the
mutex of a queue by its processor that ended in `pthread_cond_wait`. -/
structure HoldInv (s : State abi) : Prop where
  nodup : s.subReaders.Nodup
  client : ∀ n, .client n ∉ s.subReaders
  reader : ∀ q, .procer q ∈ s.subReaders → (s.procer q).reading = true ∨ s.procer q = .ended
  reading : ∀ q, (s.procer q).reading = true → .procer q ∈ s.subReaders
  mutex : ∀ q t, (s.queues q).mutex = some t → t = .procer q ∧ s.procer q = .ended
  ended : ∀ q, s.procer q = .ended → ((s.queues q).mutex = some (.procer q) ↔ .procer q ∉ s.subReaders)

/-- The part of the invariant that is about the processor of one queue. -/
structure HoldAt (s : State abi) (q : ℕ) : Prop where
  reader : .procer q ∈ s.subReaders → (s.procer q).reading = true ∨ s.procer q = .ended
  reading : (s.procer q).reading = true → .procer q ∈ s.subReaders
  mutex : ∀ t, (s.queues q).mutex = some t → t = .procer q ∧ s.procer q = .ended
  ended : s.procer q = .ended → ((s.queues q).mutex = some (.procer q) ↔ .procer q ∉ s.subReaders)

theorem HoldInv.at (h : HoldInv s) (q : ℕ) : HoldAt s q := ⟨h.reader q, h.reading q, h.mutex q, h.ended q⟩

theorem HoldAt.congr (h : HoldAt s q) (hp : s'.procer q = s.procer q)
    (hr : Thread.procer q ∈ s'.subReaders ↔ .procer q ∈ s.subReaders)
    (hm : (s'.queues q).mutex = (s.queues q).mutex) : HoldAt s' q := by
  refine ⟨?_, ?_, ?_, ?_⟩
  · rw [hp, hr]
    exact h.reader
  · rw [hp, hr]
    exact h.reading
  · rw [hp, hm]
    exact h.mutex
  · rw [hp, hr, hm]
    exact h.ended

/-- A processor outside the loops of a dispatch does not have the table. -/
theorem HoldAt.not_reader (h : HoldAt s q) (hp : (s.procer q).reading = false) (he : s.procer q ≠ .ended) :
    Thread.procer q ∉ s.subReaders := by
  intro hmem
  rcases h.reader hmem with hread | hended
  · simp [hp] at hread
  · exact he hended

/-- A processor that goes on, with the table or without. -/
theorem HoldAt.move (h : HoldAt s q) (ha : (s.procer q).alive) (ha' : s'.procer q ≠ .ended)
    (hr : Thread.procer q ∈ s'.subReaders ↔ (s'.procer q).reading = true)
    (hm : (s'.queues q).mutex = (s.queues q).mutex) : HoldAt s' q := by
  have hfree : ∀ t, (s.queues q).mutex ≠ some t := fun t ht => ha.2 (h.mutex t ht).2
  refine ⟨fun hq => .inl (hr.mp hq), hr.mpr, fun t ht => ?_, fun he => absurd he ha'⟩
  rw [hm] at ht
  exact absurd ht (hfree t)

/-- A processor has the table exactly while its dispatch reads it. -/
theorem HoldAt.mem_iff (h : HoldAt s q) (ha : (s.procer q).alive) :
    Thread.procer q ∈ s.subReaders ↔ (s.procer q).reading = true :=
  ⟨fun hmem => (h.reader hmem).resolve_right ha.2, h.reading⟩

/-- A processor that goes on and neither takes the table nor gives it back. -/
theorem HoldAt.go (h : HoldAt s q) (ha : (s.procer q).alive) (ha' : s'.procer q ≠ .ended)
    (hread : (s'.procer q).reading = (s.procer q).reading) (hr : s'.subReaders = s.subReaders)
    (hm : (s'.queues q).mutex = (s.queues q).mutex) : HoldAt s' q :=
  h.move ha ha' (by rw [hr, h.mem_iff ha, hread]) hm

/-- A processor that ends where it has the table. -/
theorem HoldAt.stop (h : HoldAt s q) (hread : (s.procer q).reading = true) (he : s'.procer q = .ended)
    (hr : s'.subReaders = s.subReaders) (hm : (s'.queues q).mutex = (s.queues q).mutex) : HoldAt s' q := by
  have hmem := h.reading hread
  have hne : s.procer q ≠ .ended := by
    intro hp
    rw [hp] at hread
    simp [ProcerPc.reading] at hread
  have hfree : ∀ t, (s.queues q).mutex ≠ some t := fun t ht => hne (h.mutex t ht).2
  refine ⟨fun _ => .inr he, fun hx => ?_, fun t ht => ?_, fun _ => ?_⟩
  · rw [he] at hx
    simp [ProcerPc.reading] at hx
  · rw [hm] at ht
    exact absurd ht (hfree t)
  · rw [hm, hr]
    exact ⟨fun hx => absurd hx (hfree _), fun hx => absurd hmem hx⟩

/-- The steps of the processor of the queue. -/
theorem holdAt_self (hA : HoldAt s q) (hN : s.subReaders.Nodup) (h : Trans s (.procer q) a s')
    (hc : s.calls (.procer q) = none) : HoldAt s' q := by
  have hw : ∀ {p}, Thread.procer q = .procer p → q = p := Thread.procer.inj
  cases h with
  | call | halt => exact hA.congr rfl .rfl rfl
  | table ha hc' | life ha hc' | cancelJoin ha ht hc' | post ha hc' | signal ha hc' => simp [hc] at hc'
  | cbRead => exact hA.congr rfl .rfl rfl
  | wait ht hc hp =>
    obtain rfl := hw ht
    have hpc : (s.procer q).alive ∧ (s.procer q).reading = false := by
      rcases hp with hp | hp <;> simp [hp, ProcerPc.alive, ProcerPc.reading]
    exact hA.go hpc.1 (by simp) (by rw [hpc.2]; simp [ProcerPc.reading]) rfl rfl
  | take ht hc hp =>
    obtain rfl := hw ht
    have hpc : (s.procer q).alive ∧ (s.procer q).reading = false := by
      rcases hp with hp | hp <;> simp [hp, ProcerPc.alive, ProcerPc.reading]
    exact hA.go hpc.1 (by simp) (by rw [hpc.2]; simp [ProcerPc.reading]) rfl (by simp)
  | wake ht hc hp | noTable ht hc hp =>
    obtain rfl := hw ht
    exact hA.go (by simp [hp, ProcerPc.alive]) (by simp) (by simp [hp, ProcerPc.reading]) rfl rfl
  | cancelWait ha ht hc hp hx hm =>
    obtain rfl := hw ht
    have hnot := hA.not_reader (by rcases hp with hp | hp <;> simp [hp, ProcerPc.reading])
      (by rcases hp with hp | hp <;> simp [hp])
    refine ⟨fun hx => absurd hx hnot, fun hx => ?_, fun t ht => ?_, fun _ => ?_⟩
    · simp [ProcerPc.reading] at hx
    · simp only [State.setProcer, Function.update_self, Option.some.injEq] at ht
      exact ⟨ht.symm, by simp⟩
    · simpa using hnot
  | rdlock ht hc hp =>
    obtain rfl := hw ht
    exact hA.move (by simp [hp, ProcerPc.alive]) (by simp) (by simp [ProcerPc.reading]) rfl
  | endDispatch ht hc hp =>
    obtain rfl := hw ht
    refine hA.move (by simp [hp, ProcerPc.alive]) (by simp [State.endDispatch]) ?_ rfl
    simp [State.endDispatch, ProcerPc.reading, hN.not_mem_erase]
  | cancelCb ha ht hc hp =>
    obtain rfl := hw ht
    exact hA.stop (by simp [hp, ProcerPc.reading]) (by simp) rfl rfl
  | @move p slot k pc pc' ht hc hp hm =>
    obtain rfl := hw ht
    have hpc : pc ≠ .rdlock ∧ pc' ≠ .rdlock := by
      rcases hm with ⟨row, rfl, -, ⟨-, rfl⟩ | ⟨-, rfl⟩⟩ | ⟨row, num, r, rfl, -, -, rfl⟩ | ⟨row, num, rfl, rfl⟩
      all_goals simp
    have hread : (pc' != .rdlock) = (pc != .rdlock) := by simp [bne_iff_ne.mpr hpc.1, bne_iff_ne.mpr hpc.2]
    exact hA.go (by simp [hp, ProcerPc.alive]) (by simp) (by simp [hp, ProcerPc.reading, hread]) rfl rfl
  | @compare p slot k row num r pc pc' ht hc hp hl hr hm =>
    obtain rfl := hw ht
    have hpc : pc ≠ .rdlock ∧ pc' ≠ .rdlock := by
      rcases hm with ⟨rfl, -, rfl | rfl⟩ | ⟨rfl, rfl | rfl⟩ <;> simp
    have hread : (pc' != .rdlock) = (pc != .rdlock) := by simp [bne_iff_ne.mpr hpc.1, bne_iff_ne.mpr hpc.2]
    exact hA.go (by simp [hp, ProcerPc.alive]) (by simp) (by simp [hp, ProcerPc.reading, hread]) rfl rfl
  | callSuber ht hc hp =>
    obtain rfl := hw ht
    exact hA.go (by simp [hp, ProcerPc.alive]) (by simp) (by rw [hp]; simp [ProcerPc.reading]; rfl) rfl rfl

/-- A step that sets up or stops a queue. -/
theorem HoldAt.life {c : Call abi} (hL : LiveInv s) (hA : HoldAt s q) (hc : s.calls t = some c)
    (h : LifeStep s t c s') : HoldAt s' q := by
  have hr : Thread.procer q ∈ s'.subReaders ↔ .procer q ∈ s.subReaders := by rw [h.subReaders]
  cases h with
  | enable =>
    -- the zeroed object is what was there
    have hz : Function.update s.queues s.nextQueue .zero = s.queues := by
      rw [← (hL.fresh s.nextQueue le_rfl).2, Function.update_eq_self]
    exact hA.congr rfl hr (by simp [hz])
  | @initMutex p | @initCond p | @destroyMutex p | @destroyCond p | @free p =>
    refine hA.congr rfl hr ?_
    by_cases hq : q = p
    · subst hq
      simp
    · simp [Function.update_of_ne hq]
  | @create p =>
    by_cases hq : q = p
    · subst hq
      obtain ⟨-, -, hp, -⟩ := hL.phase t _ hc
      have hnot := hA.not_reader (by simp [hp, ProcerPc.reading]) (by simp [hp])
      refine ⟨fun hx => absurd hx hnot, fun hx => ?_, fun t ht => ?_, fun he => ?_⟩
      · simp [ProcerPc.reading] at hx
      · simp [(hA.mutex t ht).2] at hp
      · simp at he
    · exact hA.congr (by simp [Function.update_of_ne hq]) hr rfl
  | enabled | disable | clear | disabled => exact hA.congr rfl hr rfl

/-- The steps of the calls. -/
theorem holdAt_call (hL : LiveInv s) (hA : HoldAt s q) (h : Trans s t a s') (hc : s.calls t ≠ none) :
    HoldAt s' q := by
  cases h with
  | call ha hc' | wait ht hc' | take ht hc' | wake ht hc' | cancelWait ha ht hc' | noTable ht hc' | rdlock ht hc'
  | endDispatch ht hc' | move ht hc' | compare ht hc' | callSuber ht hc' | cbRead ht hc' | cancelCb ha ht hc' =>
    exact absurd hc' hc
  | table | halt => exact hA.congr rfl .rfl rfl
  | life ha hc hl => exact hA.life hL hc hl
  | @cancelJoin p p' ha ht hc hx =>
    subst ht
    by_cases hq : q = p
    · subst hq
      have hcb := hL.inCb q (by simp [hc])
      exact hA.stop (ProcerPc.reading_of_isInCb hcb) (by simp) rfl rfl
    · exact hA.congr (Function.update_of_ne hq _ _) .rfl rfl
  | post =>
    exact hA.congr (by simp) (by simp) ((writeBack_mutex ..).trans (setQueue_mutex ..))
  | @signal _ _ _ p ha hc hl =>
    by_cases hq : s.procer p = .waiting ∧ q = p
    · obtain ⟨hw, rfl⟩ := hq
      exact hA.go (by simp [hw, ProcerPc.alive]) (by simp [State.condSignal, hw])
        (by simp [State.condSignal, hw, ProcerPc.reading]) (by simp) (by simp)
    · refine hA.congr ?_ (by simp) (by simp)
      simp only [State.ret, State.setCall, State.obs, State.condSignal]
      split
      · rename_i hw
        exact Function.update_of_ne (fun he => hq ⟨hw, he⟩) _ _
      · rfl

theorem holdAt_trans (hL : LiveInv s) (hA : HoldAt s q) (hN : s.subReaders.Nodup) (h : Trans s t a s') :
    HoldAt s' q := by
  by_cases hc : s.calls t = none
  · cases t with
    | procer p =>
      by_cases hq : q = p
      · subst hq
        exact holdAt_self hA hN h hc
      · have hF := h.queueFrame hc hq
        exact hA.congr hF.procer hF.reader (by rw [hF.queues])
    | client n =>
      cases h with
      | call | halt => exact hA.congr rfl .rfl rfl
      | table ha hc' | life ha hc' | post ha hc' | signal ha hc' => simp [hc] at hc'
      | cancelJoin ha ht | wait ht | take ht | wake ht | cancelWait ha ht | noTable ht | rdlock ht | endDispatch ht
      | move ht | compare ht | callSuber ht | cbRead ht | cancelCb ha ht => simp at ht
  · exact holdAt_call hL hA h hc

theorem holdInv_trans (hL : LiveInv s) (hH : HoldInv s) (h : Trans s t a s') : HoldInv s' := by
  have hat : ∀ q, HoldAt s' q := fun q => holdAt_trans hL (hH.at q) hH.nodup h
  have hreaders : s'.subReaders.Nodup ∧ ∀ n, Thread.client n ∉ s'.subReaders := by
    cases h with
    | @rdlock p slot k ht hc hp =>
      have hnot := (hH.at p).not_reader (by simp [hp, ProcerPc.reading]) (by simp [hp])
      exact ⟨List.nodup_cons.mpr ⟨hnot, hH.nodup⟩, fun n => by simpa using hH.client n⟩
    | endDispatch => exact ⟨hH.nodup.erase _, fun n hn => hH.client n (List.mem_of_mem_erase hn)⟩
    | post | signal => simpa using ⟨hH.nodup, hH.client⟩
    | life ha hc hl => exact hl.subReaders ▸ ⟨hH.nodup, hH.client⟩
    | _ => exact ⟨hH.nodup, hH.client⟩
  exact ⟨hreaders.1, hreaders.2, fun q => (hat q).reader, fun q => (hat q).reading, fun q => (hat q).mutex,
    fun q => (hat q).ended⟩

theorem holdInv_reach (h : Reach ok clients s) : HoldInv s := by
  refine h.induction ?_ fun _ _ _ _ hr hH _ _ h => holdInv_trans (liveInv_reach hr) hH h
  refine ⟨?_, ?_, ?_, ?_, ?_, ?_⟩ <;> simp [State.init, ProcerPc.reading, QueueObj.zero]

/-! ### A table that is left locked -/

/-- The call is at the write lock of the subscription table. -/
def Call.writesSubTable : Call abi → Bool
  | .subEvts _ _ _ true | .unsubEvts _ => true
  | _ => false

/-- While the table is read, no call takes its write lock. -/
theorem next_eq_none_of_reader {c : Call abi} (hc : s.calls u = some c) (hw : c.writesSubTable = true)
    (hs : s.subReaders ≠ []) : next s (u, .run env) = none := by
  unfold next
  split
  · rfl
  · cases c with
    | subEvts id ids args checked =>
      cases checked with
      | true => simp [hc, State.callStep, State.subEvts, hs]
      | false => simp [Call.writesSubTable] at hw
    | unsubEvts id => simp [hc, State.callStep, State.unsubEvts, hs]
    | _ => simp [Call.writesSubTable] at hw

/-- A processor that ended with the table locked unlocks it never. -/
theorem Trans.left_locked (hL : LiveInv s) (hX : StateLock s) (h : Trans s t a s') (he : s.procer q = .ended)
    (hq : .procer q ∈ s.subReaders) : s'.procer q = .ended ∧ .procer q ∈ s'.subReaders := by
  constructor
  · exact h.ended hL hX he
  · by_cases ht : t = .procer q
    · subst ht
      cases h with
      | @endDispatch p slot k row ht hc hp =>
        obtain rfl := Thread.procer.inj ht
        simp [he] at hp
      | rdlock => exact List.mem_cons_of_mem _ hq
      | life ha hc hl => exact hl.subReaders ▸ hq
      | post | signal => simpa using hq
      | _ => exact hq
    · exact h.readers_ne ht hq

theorem left_locked_forever (hr : Reach ok clients s) (he : s.procer q = .ended) (hq : .procer q ∈ s.subReaders)
    (hrun : Runs.ReachUnder next ok s s') : .procer q ∈ s'.subReaders := by
  refine (hrun.invariant (P := fun s => s.procer q = .ended ∧ .procer q ∈ s.subReaders) ⟨he, hq⟩ ?_).2
  rintro s₁ s₂ ⟨u, b⟩ hr₁ ⟨he₁, hq₁⟩ hok hn
  have hreach : Reach ok clients s₁ := Runs.ReachUnder.trans hr hr₁
  exact (next_trans hn).2.left_locked (liveInv_reach hreach) (stateLock_reach hreach) he₁ hq₁

/-! ### The return of `PLT_EVT_disableEvtManger` -/

/-- The queue whose processor the call has cancelled. -/
def DisablePc.stops : DisablePc → Option ℕ
  | .lock => none
  | .join q | .destroyCond q | .free q | .clear q | .unlock q => some q

/-- The call returns without having stopped a processor, or has freed the queue of the one that it stopped. -/
theorem disable_returns (hr : Reach ok clients s) (hn : next s (t, a) = some s') {pc : DisablePc}
    {r : Option TosResult} (hret : Returns s s' t (.disableEvtManger pc) r) :
    (pc.stops = none ∧ s.manger.state ≠ .running) ∨
      ∃ q, pc.stops = some q ∧ s.manger.state = .running ∧ s.procer q = .ended ∧ s'.procer q = .ended ∧
        (s'.queues q).mutex = (s.queues q).mutex ∧ s'.subReaders = s.subReaders := by
  have hL := liveInv_reach hr
  have hcall := hret.call
  cases (next_trans hn).2 with
  | table ha hc htab =>
    obtain rfl := Option.some.inj (hcall.symm.trans hc)
    cases htab with
    | disableNot hw hs => exact .inl ⟨rfl, hs⟩
    | disableNone hw hs hq => exact absurd hq ((hL.running ((stateLock_reach hr).settled hw)).mpr hs)
  | life ha hc hl =>
    obtain rfl := Option.some.inj (hcall.symm.trans hc)
    cases hl with
    | @disabled q =>
      obtain ⟨hs, -, he, -⟩ := hL.phase t _ hc
      exact .inr ⟨q, rfl, hs, he, he, rfl, rfl⟩
    | disable | destroyMutex | destroyCond | free | clear => exact absurd hret.done (by simp)
  | cancelJoin ha ht hc =>
    obtain ⟨os, hlog⟩ := hret.result
    have hlen := congrArg List.length hlog
    simp at hlen
  | call ha hc => simp [hcall] at hc
  | post ha hc | signal ha hc => simp [hcall] at hc
  | wait ht hc | take ht hc | wake ht hc | cancelWait ha ht hc | noTable ht hc | rdlock ht hc | endDispatch ht hc
  | move ht hc | compare ht hc | callSuber ht hc | cbRead ht hc | cancelCb ha ht hc => simp [hcall] at hc
  | halt => exact absurd hret.done (by simp [hcall])

/-- **When a stopped processor leaves no lock behind.**  A call of `PLT_EVT_disableEvtManger` returns with neither the
mutex of the queue it destroyed nor the subscription table held by the terminated thread if and only if the manager was
not running, so that it terminated none.  Otherwise exactly one of the two is held; and a table that is held stays so in
every continuation of the run, in which no call gets the table's write lock. -/
theorem stopped_holds_iff (hr : Reach ok clients s) (hn : next s (t, a) = some s') {pc : DisablePc}
    {r : Option TosResult} (hret : Returns s s' t (.disableEvtManger pc) r) :
    ((∀ q, pc.stops = some q → (s'.queues q).mutex ≠ some (.procer q) ∧ .procer q ∉ s'.subReaders) ↔
        s.manger.state ≠ .running) ∧
      ∀ q, pc.stops = some q → ((s'.queues q).mutex = some (.procer q) ↔ .procer q ∉ s'.subReaders) ∧
        (.procer q ∈ s'.subReaders → ∀ s'', Runs.ReachUnder next (fun _ _ => True) s' s'' → .procer q ∈ s''.subReaders ∧
          ∀ u c env, s''.calls u = some c → c.writesSubTable = true → next s'' (u, .run env) = none) := by
  have hH := holdInv_reach hr
  have hr' : Reach (fun _ _ => True) clients s' := (hr.mono fun _ _ _ => trivial).tail (t, a) trivial hn
  rcases disable_returns hr hn hret with ⟨hpc, hs⟩ | ⟨q, hpc, hs, he, he', hm, hR⟩
  · refine ⟨⟨fun _ => hs, fun _ q hq => by simp [hpc] at hq⟩, fun q hq => by simp [hpc] at hq⟩
  · have hone : (s'.queues q).mutex = some (.procer q) ↔ .procer q ∉ s'.subReaders := by
      rw [hm, hR]
      exact hH.ended q he
    refine ⟨⟨fun hfree => ?_, fun hx => absurd hs hx⟩, fun p hp => ?_⟩
    · obtain ⟨h1, h2⟩ := hfree q hpc
      exact absurd (hone.mpr h2) h1
    · obtain rfl := Option.some.inj (hpc.symm.trans hp)
      refine ⟨hone, fun hmem s'' hrun => ?_⟩
      have hstay := left_locked_forever hr' he' hmem hrun
      exact ⟨hstay, fun u c env hc hw => next_eq_none_of_reader hc hw (List.ne_nil_of_mem hstay)⟩

/-- The queue that the call has stopped, before the call unlocks the state. -/
def Call.stopped : Call abi → Option ℕ
  | .disableEvtManger (.unlock q) => some q
  | _ => none

theorem Call.stopped_eq_some {c : Call abi} : c.stopped = some q ↔ c = .disableEvtManger (.unlock q) := by
  unfold Call.stopped
  split <;> simp_all

/-- The next step of client `0` is the return of the call that stopped the processor of queue `0`, and the state after
it meets `p`. -/
def stopsAndThen (p : State lp64 → Bool) (s : State lp64) : Bool :=
  (s.calls (.client 0)).any fun c : Call lp64 => (next s (.client 0, .go)).any fun s' : State lp64 =>
    c.stopped == some 0 && (s'.calls (.client 0)).isNone && decide (s'.log = s.log ++ [.ret (.client 0) none]) && p s'

theorem stopsAndThen_spec {p : State lp64 → Bool} {s : State lp64} (h : stopsAndThen p s = true) :
    ∃ s', next s (.client 0, .go) = some s' ∧ Returns s s' (.client 0) (.disableEvtManger (.unlock 0)) none ∧
      p s' = true := by
  simp only [stopsAndThen, Option.any_eq_true, Bool.and_eq_true, beq_iff_eq, Call.stopped_eq_some,
    Option.isNone_iff_eq_none, decide_eq_true_eq] at h
  obtain ⟨c, hc, s', hn, ⟨⟨rfl, hdone⟩, hlog⟩, hp⟩ := h
  exact ⟨s', hn, ⟨hc, hdone, [], by simpa using hlog⟩, hp⟩

/-- A processor that waits is stopped. -/
def stoppedWaiting : List (Thread × Act lp64) := startedDefault ++ [(.procer 0, .go)] ++ disabledAtOnce.take 7

/-- A processor is stopped in the callback of the one subscription. -/
def stoppedInCb : List (Thread × Act lp64) :=
  startedDefault ++ postedKeepAlive ++ List.replicate 6 (.procer 0, .go) ++ disabledAtOnce.take 7

/-- `PLT_EVT_disableEvtManger` returns with the mutex of the queue held by the terminated thread; and, when the thread
was in a callback, with the subscription table held by it, so that an `unsubEvts` called afterwards cannot go on. -/
theorem stopped_holds_lock :
    (∃ s s' : State lp64, Reach (fun _ _ => True) 1 s ∧ next s (.client 0, .go) = some s' ∧
      Returns s s' (.client 0) (.disableEvtManger (.unlock 0)) none ∧ (s'.queues 0).mutex = some (.procer 0)) ∧
    ∃ s s' s'' : State lp64, Reach (fun _ _ => True) 1 s ∧ next s (.client 0, .go) = some s' ∧
      Returns s s' (.client 0) (.disableEvtManger (.unlock 0)) none ∧ .procer 0 ∈ s'.subReaders ∧
      next s' (.client 0, .call (.unsubEvts 0)) = some s'' ∧ next s'' (.client 0, .go) = none := by
  constructor
  · obtain ⟨s, hr, hs⟩ := reach_of_run (fun _ _ => True) 1 stoppedWaiting
      (stopsAndThen fun s => decide ((s.queues 0).mutex = some (.procer 0))) (by decide +kernel)
    obtain ⟨s', hn, hret, hp⟩ := stopsAndThen_spec hs
    exact ⟨s, s', hr, hn, hret, of_decide_eq_true hp⟩
  · obtain ⟨s, hr, hs⟩ := reach_of_run (fun _ _ => True) 1 stoppedInCb
      (stopsAndThen fun s => decide (.procer 0 ∈ s.subReaders) &&
        (next s (.client 0, .call (.unsubEvts 0))).any fun s : State lp64 => (next s (.client 0, .go)).isNone)
      (by decide +kernel)
    obtain ⟨s', hn, hret, hp⟩ := stopsAndThen_spec hs
    simp only [Bool.and_eq_true, decide_eq_true_eq, Option.any_eq_true, Option.isNone_iff_eq_none] at hp
    obtain ⟨hmem, s'', hcall, hstuck⟩ := hp
    exact ⟨s, s', s'', hr, hn, hret, hmem, hcall, hstuck⟩

/-- A processor stopped while it waits leaves the mutex of its queue locked, and not the table. -/
theorem stopped_holds_iff_waiting :
    ∃ s' : State lp64, (s'.queues 0).mutex = some (.procer 0) ∧ .procer 0 ∉ s'.subReaders := by
  obtain ⟨s, hr, hs⟩ := reach_of_run (fun _ _ => True) 1 stoppedWaiting
    (stopsAndThen fun s => decide ((s.queues 0).mutex = some (.procer 0))) (by decide +kernel)
  obtain ⟨s', hn, hret, hp⟩ := stopsAndThen_spec hs
  have hmutex := of_decide_eq_true hp
  exact ⟨s', hmutex, ((stopped_holds_iff hr hn hret).2 0 rfl).1.mp hmutex⟩

end PlatIF.Evt
