import PlatIF.Evt.Integrity
import PlatIF.Evt.PostSafety

/-!
# What ends the process

The code follows pointers that other threads may change: to a queue, to a row of a table, to a callback.  In every state
that a run reaches, four kinds of its places can go wrong, and no other.

* `Trans.subArgs` — where the arguments of a subscription come from;
* `callStep_halted`, `procerStep_halted` — one lemma for each kind of step;
* `process_ends_iff` — the steps that end the process, and the runs that have none of them.
-/

namespace PlatIF.Evt

variable {abi : Abi} {s s' : State abi} {t u : Thread} {a : Act abi} {env : Env} {clients q slot k row : ℕ}
  {ok : State abi → Thread × Act abi → Prop} {id : EvtOperID abi} {ids : List EvtID} {r : Row abi}

/-! ### The places -/

/-- The subscription was made with a null `CbProcEvtSRT_F`. -/
def Row.nullCb (r : Row abi) : Bool := r.pEvtSubArgs.any fun args => decide (args.cbProcEvtSRTF = NULL)

/-- How the use of a queue ends the process: it was freed, or the part that is used is not initialized yet or was
destroyed. -/
def queueFault (freed ready : Bool) : Option Halt :=
  if freed then some .useAfterFree else if ready then none else some .notInitialized

/-- How the next step of a call ends the process: the last test of `pubEvts`, a store through a row pointer that was freed,
or a post to a queue that is not there. -/
def State.callFault (s : State abi) : Call abi → Option Halt
  | .pubEvts _ _ (.scan row) => if row = s.manger.mayPubEvtNumMax.toNat then some .outOfBounds else none
  | .pubEvts _ _ (.fill _ pRow _) => if pRow ∈ s.manger.freedRows then some .useAfterFree else none
  | .postEvtSRT _ _ (.lock none) => some .nullDeref
  | .postEvtSRT _ _ (.lock (some q)) => queueFault (s.queues q).freed (s.queues q).mutexReady
  | .postEvtSRT _ _ (.signal q) => queueFault (s.queues q).freed (s.queues q).condReady
  | _ => none

/-- The same for a dispatch: the call of a null callback. -/
def State.dispatchFault (s : State abi) : DispatchPc → Option Halt
  | .call row _ => if (s.subRow row).any Row.nullCb then some .nullDeref else none
  | _ => none

def State.procerFault (s : State abi) : ProcerPc → Option Halt
  | .dispatch _ _ pc => s.dispatchFault pc
  | _ => none

/-- How a step ends the process, if it does. -/
def State.fault (s : State abi) (x : Thread × Act abi) : Option Halt :=
  match s.calls x.1, x.1, x.2 with
  | some c, _, .run _ => s.callFault c
  | none, .procer q, .run _ => s.procerFault (s.procer q)
  | _, _, _ => none

/-! ### The arguments of a subscription -/

/-- A new row has a copy of the arguments. -/
theorem Manger.doSubEvts_args {m : Manger abi} {args : EvtSubArgs}
    (h : (m.doSubEvts id ids args env).2.subRow row = some r) (hnone : m.subRow row = none) :
    r.pEvtSubArgs = some args := by
  have hno : ∀ {x : Manger abi}, x = m → x.subRow row = some r → r.pEvtSubArgs = some args := by
    intro x hx hrow
    rw [hx, hnone] at hrow
    simp at hrow
  unfold Manger.doSubEvts at h
  split at h
  · exact hno rfl h
  · rename_i tab htab
    split at h
    · exact hno rfl h
    · split at h
      · exact hno rfl h
      · split at h
        · exact hno rfl h
        · rcases Table.set_eq_some h with ⟨-, hx⟩ | hold
          · rw [← Option.some.inj hx]
          · have hrow : m.subRow row = some r := by
              rw [Manger.subRow, htab]
              exact hold
            exact hno rfl hrow

/-- A row was there before, or has the arguments of the call that inserts it. -/
theorem Trans.subArgs (hT : s.manger.NoTables ∨ s.manger.HasTables) (h : Trans s t a s')
    (hr : s'.manger.subRow row = some r) : s.manger.subRow row = some r ∨
      ∃ id ids args, s.calls t = some (.subEvts id ids args true) ∧ r.pEvtSubArgs = some args := by
  cases h with
  | table ha hc htab =>
    rcases (htab.subRow hT hr).2 with hold | ⟨hnone, ids, args, rfl⟩
    · exact .inl hold
    · cases htab with
      | sub hl => exact .inr ⟨_, ids, args, hc, Manger.doSubEvts_args hr hnone⟩
  | life ha hc hl =>
    rw [hl.tables] at hr
    exact .inl hr
  | post | signal => exact .inl (by simpa using hr)
  | _ => exact .inl hr

theorem subArgs_reach (h : Reach ok clients s) : ∀ row r, s.manger.subRow row = some r → r.pEvtSubArgs ≠ none :=
  h.induction (P := fun s => ∀ row r, s.manger.subRow row = some r → r.pEvtSubArgs ≠ none)
    (fun row r hr => by simp [State.init, Manger.init, Manger.subRow] at hr) fun _ _ _ _ hr hP _ _ h row r hrow => by
      rcases h.subArgs (tables_reach hr) hrow with hold | ⟨id, ids, args, -, hargs⟩
      · exact hP row r hold
      · simp [hargs]

/-! ### Posts -/

/-- A post goes on to the queue when the tables exist, and only a callback posts the descriptor it was handed. -/
structure LoadInv (s : State abi) : Prop where
  load : ∀ t id arg, s.calls t = some (.postEvtSRT id arg .load) → s.manger.HasTables
  received : ∀ n id pc, s.calls (.client n) ≠ some (.postEvtSRT id .received pc)

theorem loadInv_trans (hT : s.manger.NoTables ∨ s.manger.HasTables) (hI : LoadInv s) (h : Trans s t a s') :
    LoadInv s' := by
  constructor
  case load =>
    intro u id arg hc
    by_cases hut : u = t
    · subst hut
      rcases h.post_own hc with hc | ⟨hpc, -⟩ | ⟨env, pc, rfl, -, -⟩
      · exact (hasTables_trans h (hI.load _ _ _ hc)).1
      · simp at hpc
      · refine (hasTables_trans h ?_).1
        cases h with
        | table ha hc' htab =>
          simp only [State.tableStep, Function.update_self] at hc
          subst hc
          cases htab with
          | postCheck hreg => exact hT.resolve_left fun hN => Manger.isReged_ne_none hreg hN.reg
        | life ha hc' hl => cases hl <;> simp at hc
        | post | cancelJoin | signal => simp at hc
        | call ha' => simp at ha'
        | _ => exact hI.load _ _ _ hc
    · rw [h.calls_ne hut] at hc
      exact (hasTables_trans h (hI.load _ _ _ hc)).1
  case received =>
    intro n id pc hc
    by_cases hut : .client n = t
    · subst hut
      rcases h.post_own hc with hc | ⟨-, hne⟩ | ⟨env, pc, rfl, hc, -⟩
      · exact hI.received _ _ _ hc
      · exact hne n rfl rfl
      · exact hI.received _ _ _ hc
    · rw [h.calls_ne hut] at hc
      exact hI.received _ _ _ hc

theorem loadInv_reach (h : Reach ok clients s) : LoadInv s :=
  h.induction (P := LoadInv) ⟨by simp [State.init], by simp [State.init]⟩
    fun _ _ _ _ hr hI _ _ h => loadInv_trans (tables_reach hr) hI h

/-! ### Which steps end the process -/

theorem pubEvts_halted {pc : PubPc} (hh : s.halted = none) (hf : s.manger.PubFits ids pc)
    (h : s.pubEvts t id ids pc env = some s') : s'.halted = s.callFault (.pubEvts id ids pc) := by
  cases pc with
  | check =>
    simp only [State.pubEvts] at h
    split at h
    · exact Option.some.inj h ▸ hh
    · split at h <;> exact Option.some.inj h ▸ hh
  | scan row =>
    obtain ⟨hT, hle⟩ := hf
    obtain ⟨tab, htab, hlen⟩ := Option.map_eq_some_iff.mp hT.pub
    simp only [State.pubEvts, htab, hlen, if_neg (Nat.not_lt.mpr hle)] at h
    show _ = if row = s.manger.mayPubEvtNumMax.toNat then some Halt.outOfBounds else none
    by_cases hrow : row = s.manger.mayPubEvtNumMax.toNat
    · rw [if_pos (by omega)] at h
      rw [if_pos hrow, ← Option.some.inj h, State.halt]
    · rw [if_neg (by omega)] at h
      rw [if_neg hrow]
      split at h
      · exact Option.some.inj h ▸ hh
      · split at h <;> exact Option.some.inj h ▸ hh
  | store row => exact Option.some.inj h ▸ hh
  | fill row pRow pc =>
    simp only [State.pubEvts] at h
    show _ = if pRow ∈ s.manger.freedRows then some Halt.useAfterFree else none
    by_cases hf : pRow ∈ s.manger.freedRows
    · rw [if_pos hf] at h
      rw [if_pos hf, ← Option.some.inj h, State.halt]
    · rw [if_neg hf] at h
      rw [if_neg hf]
      split at h <;> exact Option.some.inj h ▸ hh

theorem postEvtSRT_halted {arg : PostArg abi} {pc : PostPc} (hh : s.halted = none) (hL : LiveInv s) (hI : LoadInv s)
    (hc : s.calls t = some (.postEvtSRT id arg pc)) (h : s.postEvtSRT t id arg pc = some s') :
    s'.halted = s.callFault (.postEvtSRT id arg pc) := by
  cases pc with
  | check =>
    simp only [State.postEvtSRT] at h
    split at h <;> exact Option.some.inj h ▸ hh
  | load =>
    simp only [State.postEvtSRT, Option.isNone_iff_eq_none, if_neg (hI.load _ _ _ hc).queue] at h
    exact Option.some.inj h ▸ hh
  | lock p =>
    cases p with
    | none => rw [← Option.some.inj h, State.halt]; rfl
    | some q =>
      have harg : s.argDesc t arg ≠ none :=
        argDesc_ne_none hL (fun n harg ht => hI.received n id _ (by rw [← ht, hc, harg])) hc
      simp only [State.postEvtSRT] at h
      show _ = queueFault (s.queues q).freed (s.queues q).mutexReady
      unfold queueFault
      split at h
      · rw [← Option.some.inj h, State.halt]
        simp_all
      · split at h
        · rw [← Option.some.inj h, State.halt]
          simp_all
        · have hno : s'.halted = none := by
            split at h
            · simp at h
            · rw [← Option.some.inj h]
              unfold State.postSection
              split
              · exact hh
              · split
                · contradiction
                · simpa using hh
          simp_all
  | signal q =>
    simp only [State.postEvtSRT] at h
    show _ = queueFault (s.queues q).freed (s.queues q).condReady
    unfold queueFault
    split at h
    · rw [← Option.some.inj h, State.halt]
      simp_all
    · split at h
      · rw [← Option.some.inj h, State.halt]
        simp_all
      · have hno : s'.halted = none := by
          rw [← Option.some.inj h]
          simpa using hh
        simp_all

/-- The step of a call. -/
theorem callStep_halted (hr : Reach ok clients s) (hh : s.halted = none) {c : Call abi} (hc : s.calls t = some c)
    (h : s.callStep t c env = some s') : s'.halted = s.callFault c := by
  have hrest : (∀ x, ¬ HaltStep s t x) → s'.halted = none := fun hno =>
    ((callStep_trans hc h).halted_eq.resolve_right fun ⟨x, hx⟩ => hno x hx).trans hh
  cases c with
  | pubEvts id ids pc => exact pubEvts_halted hh (pubInv_reach hr t id ids pc hc) h
  | postEvtSRT id arg pc => exact postEvtSRT_halted hh (liveInv_reach hr) (loadInv_reach hr) hc h
  | _ =>
    refine hrest fun x hx => ?_
    cases hx <;> simp_all

theorem dispatchStep_halted {pc : DispatchPc} (hh : s.halted = none) (hl : (s.queues q).freed = false)
    (hf : s.manger.Fits pc) (hA : ∀ row r, s.manger.subRow row = some r → r.pEvtSubArgs ≠ none)
    (h : s.dispatchStep q slot k pc = some s') : s'.halted = s.dispatchFault pc := by
  have hcompare : ∀ {row num : ℕ} {matched : EvtID → Bool} {yes : DispatchPc},
      (s.compare q slot k row num matched yes).halted = none := by
    intro row num matched yes
    simp only [State.compare, hl, Bool.false_eq_true, if_false]
    exact hh
  cases pc with
  | rdlock =>
    simp only [State.dispatchStep] at h
    split at h <;> exact Option.some.inj h ▸ hh
  | row row =>
    simp only [State.dispatchStep] at h
    split at h
    · exact Option.some.inj h ▸ hh
    · split at h <;> exact Option.some.inj h ▸ hh
  | cmpClass row num =>
    obtain ⟨-, r, hrow, -⟩ := hf
    simp only [State.dispatchStep, show s.subRow row = some r from hrow] at h
    split at h
    · exact Option.some.inj h ▸ hh
    · exact Option.some.inj h ▸ hcompare
  | cmpClassmate row num =>
    obtain ⟨-, r, hrow, -⟩ := hf
    simp only [State.dispatchStep, show s.subRow row = some r from hrow] at h
    exact Option.some.inj h ▸ hcompare
  | call row num =>
    obtain ⟨-, r, hrow, -⟩ := hf
    obtain ⟨args, hargs⟩ := Option.ne_none_iff_exists'.mp (hA row r hrow)
    simp only [State.dispatchStep, show s.subRow row = some r from hrow, State.callSuber, hargs, Option.some.injEq] at h
    simp only [State.dispatchFault, show s.subRow row = some r from hrow, Option.any_some, Row.nullCb, hargs,
      decide_eq_true_eq]
    by_cases hcb : args.cbProcEvtSRTF = NULL
    · rw [if_pos hcb] at h ⊢
      rw [← h, State.halt]
    · rw [if_neg hcb] at h ⊢
      exact h ▸ hh
  | inCb row num => simp [State.dispatchStep] at h

/-- A callback that looks at its descriptor or returns ends nothing. -/
theorem cbStep_halted {num : ℕ} (hh : s.halted = none) (hc : s.calls (.procer q) = none)
    (hp : s.procer q = .dispatch slot k (.inCb row num)) (hl : (s.queues q).freed = false)
    (h : s.cbStep q slot k row num a = some s') : s'.halted = s.fault (.procer q, a) := by
  have hf : s.fault (.procer q, a) = none := by
    cases a <;> simp [State.fault, hc, hp, State.procerFault, State.dispatchFault]
  rw [hf]
  cases a with
  | cbRead =>
    simp only [State.cbStep, hl, Bool.false_eq_true, if_false] at h
    exact Option.some.inj h ▸ hh
  | cbRet => exact Option.some.inj h ▸ hh
  | cancel =>
    simp only [State.cbStep] at h
    split at h
    · exact Option.some.inj h ▸ hh
    · simp at h
  | call api => simp [State.cbStep] at h
  | run env => simp [State.cbStep] at h
  | wake => simp [State.cbStep] at h

/-- The step of a processor outside the calls of its callback. -/
theorem procerStep_halted (hr : Reach ok clients s) (hh : s.halted = none) (hc : s.calls (.procer q) = none)
    (h : s.procerStep q a = some s') : s'.halted = s.fault (.procer q, a) := by
  have hlive : (s.procer q).alive → (s.queues q).freed = false := fun ha =>
    ((liveInv_reach hr).live q ha).2.freed
  have hconsume : (s.procer q).alive → s.consume q = some s' → s'.halted = none := by
    intro ha h
    simp only [State.consume, hlive ha, Bool.false_eq_true, if_false] at h
    split at h
    · simp at h
    · split at h <;> exact Option.some.inj h ▸ hh
  have hcancel : s.cancelWait q = some s' → s'.halted = none := by
    intro h
    unfold State.cancelWait at h
    split at h
    · simp at h
    · exact Option.some.inj h ▸ hh
  unfold State.procerStep at h
  split at h
  case h_1 hp =>
    simp only [State.fault, hc, hp, State.procerFault]
    exact hconsume (by simp [hp, ProcerPc.alive]) h
  case h_2 hp =>
    simp only [State.fault, hc, hp, State.procerFault]
    exact hconsume (by simp [hp, ProcerPc.alive]) h
  case h_3 hp =>
    simp only [State.fault, hc]
    exact Option.some.inj h ▸ hh
  case h_4 hp =>
    simp only [State.fault, hc]
    exact hcancel h
  case h_5 hp =>
    simp only [State.fault, hc]
    exact hcancel h
  case h_6 hp => exact cbStep_halted hh hc hp (hlive (by simp [hp, ProcerPc.alive])) h
  case h_7 slot k pc env hno hp =>
    have hl := hlive (by simp [hp, ProcerPc.alive])
    simp only [State.fault, hc, hp, State.procerFault]
    exact dispatchStep_halted hh hl (loopInv_reach hr q slot k pc hp).1 (subArgs_reach hr) h
  case h_8 => simp at h

/-- **Which steps end the process**, and how. -/
theorem halted_eq_fault (hr : Reach ok clients s) (h : next s (t, a) = some s') : s'.halted = s.fault (t, a) := by
  have hh := (next_trans h).1
  unfold next at h
  rw [if_neg (by simp [hh])] at h
  split at h
  case h_1 c env hc ha =>
    obtain rfl : a = .run env := ha
    have hc : s.calls t = some c := hc
    simp only [State.fault, hc]
    exact callStep_halted hr hh hc h
  case h_2 p hc ha =>
    obtain rfl : a = .cancel := ha
    have hc : s.calls t = some (.disableEvtManger (.join p)) := hc
    simp only [State.fault, hc]
    have hno : ∀ x, ¬ HaltStep s t x := by
      intro x hx
      cases hx <;> simp_all
    exact ((cancelJoin_trans hc h).halted_eq.resolve_right fun ⟨x, hx⟩ => hno x hx).trans hh
  case h_3 => simp at h
  case h_4 api hc ha =>
    obtain rfl : a = .call api := ha
    have hc : s.calls t = none := hc
    simp only [State.fault, hc]
    unfold State.startCall at h
    split at h
    · simp at h
    · split at h
      · exact Option.some.inj h ▸ hh
      · simp at h
  case h_5 hc hno =>
    cases t with
    | client n => simp at h
    | procer q => exact procerStep_halted hr hh hc h

/-! ### Runs that are not ended -/

/-- A subscription is made with a callback. -/
def Api.givesCb : Api abi → Bool
  | .subEvts _ _ args => decide (args.cbProcEvtSRTF ≠ NULL)
  | _ => true

def Act.givesCb : Act abi → Bool
  | .call api => api.givesCb
  | _ => true

/-- A `pubEvts` finds a free row. -/
def State.pubFinds (s : State abi) (x : Thread × Act abi) : Bool := (s.calls x.1).all s.manger.callInside

/-- Posts find their queue, `pubEvts` finds a free row, `unpubEvts` frees no row that is being filled in, and
subscriptions have a callback. -/
def State.faultless (s : State abi) (x : Thread × Act abi) : Bool :=
  s.postsLive x && s.pubFinds x && s.leavesFills x && x.2.givesCb

theorem State.faultless_iff {x : Thread × Act abi} :
    s.faultless x = true ↔
      s.postsLive x = true ∧ s.pubFinds x = true ∧ s.leavesFills x = true ∧ x.2.givesCb = true := by
  simp [State.faultless, and_assoc]

/-- Every subscription has a callback, and so has every one on its way. -/
structure CbInv (s : State abi) : Prop where
  rows : ∀ row r, s.manger.subRow row = some r → r.nullCb = false
  calls : ∀ t id ids args b, s.calls t = some (.subEvts id ids args b) → args.cbProcEvtSRTF ≠ NULL

theorem cbInv_trans (hT : s.manger.NoTables ∨ s.manger.HasTables) (hI : CbInv s) (hok : a.givesCb = true)
    (h : Trans s t a s') : CbInv s' := by
  constructor
  case rows =>
    intro row r hr
    rcases h.subArgs hT hr with hold | ⟨id, ids, args, hc, hargs⟩
    · exact hI.rows row r hold
    · simpa [Row.nullCb, hargs] using hI.calls t id ids args true hc
  case calls =>
    intro u id ids args b hc
    by_cases hut : u = t
    · subst hut
      cases h with
      | @call api ha =>
        subst ha
        have hapi : api.givesCb = true := hok
        simp only [State.setCall, Function.update_self, Option.some.injEq] at hc
        cases api with
        | subEvts id' ids' args' =>
          simp only [Api.toCall, Call.subEvts.injEq] at hc
          simpa [Api.givesCb, hc.2.2.1] using hapi
        | _ => simp [Api.toCall] at hc
      | table ha hc' htab =>
        simp only [State.tableStep, Function.update_self] at hc
        subst hc
        cases htab with
        | subCheck => exact hI.calls u id ids args false hc'
      | life ha hc' hl => cases hl <;> simp at hc
      | post | cancelJoin | signal => simp at hc
      | _ => exact hI.calls u id ids args b hc
    · rw [h.calls_ne hut] at hc
      exact hI.calls u id ids args b hc

theorem cbInv_reach (h : Reach (fun s x => s.faultless x = true) clients s) : CbInv s :=
  h.induction (P := CbInv) ⟨by simp [State.init, Manger.init, Manger.subRow], by simp [State.init]⟩
    fun _ _ _ _ hr hI hok _ h => cbInv_trans (tables_reach hr) hI (State.faultless_iff.mp hok).2.2.2 h

/-- Under the condition no step is one of those. -/
theorem fault_eq_none (hr : Reach (fun s x => s.faultless x = true) clients s) (hok : s.faultless (t, a) = true) :
    s.fault (t, a) = none := by
  have hC := cbInv_reach hr
  have hP := postInv_reach (hr.mono fun _ _ hx => (State.faultless_iff.mp hx).1)
  have hF := fillsLive_reach (hr.mono fun _ _ hx => (State.faultless_iff.mp hx).2.2.1)
  obtain ⟨-, hpub, -⟩ := State.faultless_iff.mp hok
  have hdispatch : ∀ pc, s.dispatchFault pc = none := by
    intro pc
    unfold State.dispatchFault
    split
    · rename_i row num
      cases hrow : s.subRow row with
      | none => rfl
      | some r => simp [hC.rows row r hrow]
    · rfl
  unfold State.fault
  split
  · rename_i c env hc _
    have hc : s.calls t = some c := hc
    unfold State.callFault
    split
    · rename_i id ids row
      simp only [State.pubFinds, hc, Option.all_some, Manger.callInside, decide_eq_true_eq] at hpub
      exact if_neg hpub
    · exact if_neg (hF _ ⟨t, _, hc, rfl⟩)
    · obtain ⟨q, hq, -⟩ := hP.lock _ _ _ _ hc
      simp at hq
    · obtain ⟨q, hq, -, hu⟩ := hP.lock _ _ _ _ hc
      obtain rfl := Option.some.inj hq
      simp [queueFault, hu.freed, hu.mutexReady]
    · have hu := (hP.signal _ _ _ _ hc).2
      simp [queueFault, hu.freed, hu.condReady]
    · rfl
  · rename_i q env _ _ _
    unfold State.procerFault
    split
    · exact hdispatch _
    · rfl
  · rfl

theorem not_halted_reach (h : Reach (fun s x => s.faultless x = true) clients s) : s.halted = none :=
  Runs.ReachUnder.invariant (P := fun s : State abi => s.halted = none) rfl
    (fun _ _ _ hr _ hok hn => (halted_eq_fault hr hn).trans (fault_eq_none hr hok)) h

/-- An operator subscribes without a callback, and an event for it is dispatched up to the call. -/
def takenWithoutCb : List (Thread × Act lp64) :=
  ([(.client 0, .call (.initEvtManger (some ⟨0, 0, 1, 0⟩))), (.client 0, .go),
    (.client 0, .call (.regOper ⟨0⟩)), (.client 0, .go), (.client 0, .go),
    (.client 0, .call (.subEvts 0 [evtIDTestKeepAlive] ⟨1, NULL⟩)), (.client 0, .go), (.client 0, .go)] :
    List (Thread × Act lp64)) ++ enabling (.client 0) ++
    postOf (defineEvtDesc lp64 evtIDTestKeepAlive) ++ (.client 0, .go) :: List.replicate 5 (.procer 0, .go)

end PlatIF.Evt
