import PlatIF.Ioc.Ownership
import PlatIF.Lib.CondVar

/-!
# The wake-ups of an async thread

The async thread of a slot tests its queue and its exit flag before it waits on `Cond`.  `postEVT` and `unsubEVT` make
their change behind the mutex of the slot, and signal when they have left it.

* `State.evtCond`, `State.exitCond` — the slot's `Cond`, once for the events that are queued, once for the exit flag;
* `evtCond_step`, `exitCond_step` — every step of every thread is one of a program that tests before it waits and
  signals after it has made a change;
* `no_lost_wakeup` — so a thread that waits with an event or the exit flag before it is about to be woken.
-/

namespace PlatIF.Ioc

variable {abi : Abi} {s s' s₁ : State abi} {t u w : Tid} {a : Act abi} {i g : ℕ} {rest : List (Frame abi)}
  {ok : State abi → Tid × Act abi → Prop} {maxSuberNum : ULong abi} {clients : ℕ}

/-! ### The condition variable of a slot -/

theorem State.waitsOn_iff : s.waitsOn u i = true ↔ ∃ g, s.base u = .async i g .waiting := by
  unfold State.waitsOn
  split
  · rename_i j g hb
    rw [hb, beq_iff_eq]
    constructor
    · rintro rfl
      exact ⟨g, rfl⟩
    · rintro ⟨_, h⟩
      exact (Base.async.inj h).1
  · rename_i hno
    simp only [Bool.false_eq_true, false_iff]
    rintro ⟨g, hb⟩
    exact hno i g hb

/-- `w` has pushed an event into the queue of slot `i` and comes to `pthread_cond_signal`. -/
def State.Pushed (s : State abi) (w : Tid) (i : ℕ) : Prop := ∃ f rest, s.frames w = .post f :: rest ∧ f.pc = .signal i

/-- `w` has set the exit flag of slot `i` and comes to `pthread_cond_signal`. -/
def State.FlagSet (s : State abi) (w : Tid) (i : ℕ) : Prop := ∃ f rest, s.frames w = .unsub f :: rest ∧ f.pc = .signal i

/-- `Cond` of slot `i`, for `EvtPostCnt != EvtProcCnt`. -/
def State.evtCond (s : State abi) (i : ℕ) : CondVar Tid where
  waiting := {u | s.waitsOn u i = true}
  holds := (s.suber i).evtQueue.isEmpty = false
  owing := {w | s.Pushed w i}

/-- `Cond` of slot `i`, for `ShouldExitASyncThread`. -/
def State.exitCond (s : State abi) (i : ℕ) : CondVar Tid where
  waiting := {u | s.waitsOn u i = true}
  holds := (s.suber i).shouldExitASyncThread = true
  owing := {w | s.FlagSet w i}

/-! ### Who goes to sleep -/

/-- Nobody comes to wait by the return of a post. -/
theorem State.retPost_waitsOn (f : PostFrame abi) (r : TosResult) :
    (s.retPost t f rest r).waitsOn u i = s.waitsOn u i := by
  by_cases hu : u = t
  · subst hu
    rcases s.retPost_base_self u f rest r with h | ⟨j, g, d, -, h, h'⟩
    · rw [State.waitsOn, State.waitsOn, h]
    · rw [State.waitsOn, State.waitsOn, h, h']
  · rw [State.waitsOn, State.waitsOn, State.retPost_base_ne _ _ _ _ _ hu]

/-- A thread that waits after a step waited before it, or has just found the queue empty and the exit flag not set. -/
theorem Trans.waitsOn_next (hT : ThreadInv s) (h : Trans s t a s') (hu : s'.waitsOn u i = true) :
    s.waitsOn u i = true ∨
      (s'.suber i).evtQueue.isEmpty = true ∧ (s'.suber i).shouldExitASyncThread = false := by
  obtain ⟨g, hb'⟩ := State.waitsOn_iff.mp hu
  have hsame : s'.base u = s.base u → s.waitsOn u i = true := fun h =>
    State.waitsOn_iff.mpr ⟨g, h.symm.trans hb'⟩
  by_cases hut : u = t
  · subst hut
    have hS := hT.stack u
    cases h
    case asyncWait hf hb hp hx hs he =>
      simp only [State.setBase, Function.update_self, Base.async.injEq] at hb'
      obtain ⟨rfl, -, -⟩ := hb'
      exact .inr ⟨he, hs⟩
    case unsubSignal hf _ hw | postSignal hf _ hw | postRetrySignal hf _ hw =>
      exact .inl (hsame (hw.base_self hS (by simp [hf])))
    case postAccept hf _ _ _ | postFull hf _ _ _ _ | postRetry hf _ _ _ _ _ | haltPush hf _ =>
      exact .inl (hsame (State.withThread_base_self (hT.ne_nextTid (by simp [hf]))))
    case cbRetAsync | asyncStart | asyncExit | asyncTake | asyncWake | asyncCall | asyncDrain | asyncReplay | asyncTop |
        asyncRetire | asyncRedo => simp at hb'
    case postNotFound | postBusy | postCacheFull | postCache | postEnd =>
      rw [State.retPost_waitsOn] at hu
      exact .inl hu
    all_goals exact .inl (hsame (by simp))
  · cases h.base_ne hut with
    | same h => exact .inl (hsame h)
    | created _ _ _ _ h | woken _ h => simp [h] at hb'

/-! ### The signal -/

/-- `pthread_cond_signal` wakes one of the threads that wait on the slot, if there is one. -/
theorem State.condSignal_signalled (hT : ThreadInv s) {woken : Option Tid} (hs : s.condSignal i woken = some s₁)
    (hb : s'.base = s₁.base) : CondVar.Signalled (s.evtCond i) (s'.evtCond i) := by
  have hbase : ∀ u, s'.waitsOn u i = s₁.waitsOn u i := fun u => by rw [State.waitsOn, State.waitsOn, hb]
  constructor
  · intro u hu
    show s.waitsOn u i = true
    have hu₁ : s₁.waitsOn u i = true := (hbase u).symm.trans hu
    obtain ⟨g, hg⟩ := State.waitsOn_iff.mp hu₁
    obtain ⟨b, rfl, hother⟩ := (condSignal_woken hs).eq
    rcases hother u with h | ⟨_, -, h⟩
    · exact State.waitsOn_iff.mpr ⟨g, h.symm.trans hg⟩
    · exact absurd (h.symm.trans hg) (by simp)
  · rintro ⟨u, hu⟩
    change s.waitsOn u i = true at hu
    cases woken with
    | none =>
      -- the signal is lost only when nobody waits
      obtain ⟨g, hg⟩ := State.waitsOn_iff.mp hu
      have hlt : u < s.nextTid := by
        by_contra hge
        simp [(hT.fresh u (Nat.not_lt.mp hge)).1] at hg
      simp only [State.condSignal] at hs
      split at hs
      · simp at hs
      · rename_i hno
        exact absurd (List.any_eq_true.mpr ⟨u, List.mem_range.mpr hlt, hu⟩) hno
    | some v =>
      simp only [State.condSignal] at hs
      split at hs
      · rename_i j g hv
        split at hs
        · rename_i hj
          subst hj
          refine ⟨v, State.waitsOn_iff.mpr ⟨g, hv⟩, fun hv' => ?_⟩
          change s'.waitsOn v j = true at hv'
          rw [hbase, ← Option.some.inj hs] at hv'
          simp [State.waitsOn] at hv'
        · simp at hs
      · simp at hs

/-- What the step with a signal leaves of the threads. -/
theorem State.base_of_condSignal {woken : Option Tid} {fs : List (Frame abi)}
    (h : (match s.condSignal i woken with
      | none => none
      | some s => some (s.setFrames t fs)) = some s') :
    ∃ s₁, s.condSignal i woken = some s₁ ∧ s'.base = s₁.base := by
  split at h
  · simp at h
  · rename_i s₁ hs
    refine ⟨s₁, hs, ?_⟩
    rw [← Option.some.inj h]
    rfl

/-- A thread that comes to signal does nothing else. -/
theorem next_signal (hsig : s.Pushed t i ∨ s.FlagSet t i) (hn : next s (t, a) = some s') :
    ∃ woken s₁, s.condSignal i woken = some s₁ ∧ s'.base = s₁.base := by
  have hh := (next_trans hn).1
  rcases hsig with ⟨f, rest, hf, hp⟩ | ⟨f, rest, hf, hp⟩
  · cases a with
    | signal woken =>
      simp only [next, State.step, hh, hf, State.postStep, hp, Option.isSome_none, Bool.false_eq_true, if_false] at hn
      exact ⟨woken, State.base_of_condSignal hn⟩
    | _ => simp [next, State.step, hh, hf, State.postStep, hp] at hn
  · cases a with
    | signal woken =>
      simp only [next, State.step, hh, hf, State.unsubStep, hp, Option.isSome_none, Bool.false_eq_true, if_false] at hn
      exact ⟨woken, State.base_of_condSignal hn⟩
    | _ => simp [next, State.step, hh, hf, State.unsubStep, hp] at hn

/-- It is never blocked. -/
theorem exists_next_signal (hsig : s.Pushed t i ∨ s.FlagSet t i) (hh : s.halted = none) :
    ∃ a s', next s (t, a) = some s' := by
  obtain ⟨woken, s₁, hs⟩ := s.exists_condSignal i
  rcases hsig with ⟨f, rest, hf, hp⟩ | ⟨f, rest, hf, hp⟩
  · exact ⟨.signal woken, _, by simp only [next, State.step, hh, hf, State.postStep, hp, hs]; rfl⟩
  · exact ⟨.signal woken, _, by simp only [next, State.step, hh, hf, State.unsubStep, hp, hs]; rfl⟩

/-- The signal of a thread that comes to it. -/
theorem signalled_of_next (hT : ThreadInv s) (hsig : s.Pushed t i ∨ s.FlagSet t i) (hn : next s (t, a) = some s') :
    CondVar.Signalled (s.evtCond i) (s'.evtCond i) := by
  obtain ⟨woken, s₁, hs, hb⟩ := next_signal hsig hn
  exact State.condSignal_signalled hT hs hb

/-! ### The steps -/

/-- What stands on the stack of another thread is left there. -/
theorem Trans.stack_keep {Q : List (Frame abi) → Prop} (h : Trans s t a s') (hno : ¬ Q (s.frames t))
    (hw : Q (s.frames w)) : Q (s'.frames w) := by
  have hne : w ≠ t := by
    rintro rfl
    exact hno hw
  rw [h.frames_ne hne]
  exact hw

/-- **Events.**  Every step is one of a program that tests the queue before it waits, and signals after a push. -/
theorem evtCond_step (hT : ThreadInv s) (hA : AllocInv s) (hn : next s (t, a) = some s') :
    (s.evtCond i).Step (s'.evtCond i) := by
  have h := (next_trans hn).2
  have he := h.effect hT hA
  by_cases hsig : s.Pushed t i
  · exact .signalled (signalled_of_next hT (.inl hsig) hn)
  cases hempty' : (s'.suber i).evtQueue.isEmpty with
  | true => exact .tested (by simp [State.evtCond, hempty'])
  | false =>
    cases hempty : (s.suber i).evtQueue.isEmpty with
    | true =>
      obtain ⟨f, rest, hf, hp⟩ := he.pushed hempty hempty'
      rcases h.push_next hf hp with hq | ⟨f', hf', hp'⟩
      · simp [hq, hempty] at hempty'
      · exact .raised ⟨f', rest, hf', hp'⟩
    | false =>
      refine .quiet (fun u hu => ?_) (fun _ => hempty) fun w hw =>
        h.stack_keep (Q := fun fs => ∃ f rest, fs = .post f :: rest ∧ f.pc = .signal i) hsig hw
      rcases h.waitsOn_next hT hu with hu | ⟨hno, -⟩
      · exact hu
      · simp [hempty'] at hno

/-- **The exit flag.**  Every step is one of a program that tests the flag before it waits, and signals after it has set
it. -/
theorem exitCond_step (hT : ThreadInv s) (hA : AllocInv s) (hn : next s (t, a) = some s') :
    (s.exitCond i).Step (s'.exitCond i) := by
  have h := (next_trans hn).2
  have he := h.effect hT hA
  by_cases hsig : s.FlagSet t i
  · have hs := signalled_of_next hT (.inr hsig) hn
    exact .signalled ⟨hs.sub, hs.wakes⟩
  cases hflag' : (s'.suber i).shouldExitASyncThread with
  | false => exact .tested (by simp [State.exitCond, hflag'])
  | true =>
    rcases he.flag_set hflag' with hflag | hset
    · refine .quiet (fun u hu => ?_) (fun _ => hflag) fun w hw =>
        h.stack_keep (Q := fun fs => ∃ f rest, fs = .unsub f :: rest ∧ f.pc = .signal i) hsig hw
      rcases h.waitsOn_next hT hu with hu | ⟨-, hno⟩
      · exact hu
      · simp [hflag'] at hno
    · exact .raised hset

/-! ### The law -/

/-- A thread waits on its own slot. -/
theorem OwnedInv.waiting_subsingleton (hW : OwnedInv s) (i : ℕ) : {u | s.waitsOn u i = true}.Subsingleton := by
  have hown : ∀ u, s.waitsOn u i = true → (s.suber i).asyncThreadID = some u := fun u hu => by
    obtain ⟨g, hg⟩ := State.waitsOn_iff.mp hu
    exact hW u i ⟨g, .waiting, hg⟩
  intro u hu v hv
  exact Option.some.inj ((hown u hu).symm.trans (hown v hv))

/-- Nobody waits at the start. -/
theorem State.init_waiting : {u | (State.init maxSuberNum clients).waitsOn u i = true} = ∅ := by
  rw [Set.eq_empty_iff_forall_notMem]
  intro u hu
  obtain ⟨g, hg⟩ := State.waitsOn_iff.mp hu
  exact State.init_base_ne maxSuberNum clients u i g .waiting hg

/-- What is about to happen to the async thread `u` that waits on slot `i`. -/
structure WakeUp (s : State abi) (u : Tid) (i g : ℕ) : Prop where
  thread : (s.suber i).asyncThreadID = some u
  sid : s.sid i = g
  /-- With an event before it, another thread has pushed one and not signalled yet. -/
  queue : (s.suber i).evtQueue.postCnt ≠ (s.suber i).evtQueue.procCnt → ∃ w, w ≠ u ∧ s.Pushed w i
  /-- With the exit flag set, another thread has set it and not signalled yet. -/
  exit : (s.suber i).shouldExitASyncThread = true → ∃ w, w ≠ u ∧ s.FlagSet w i
  /-- Such a thread is never blocked while the process runs, and its next step wakes `u`. -/
  wakes : ∀ w, s.Pushed w i ∨ s.FlagSet w i → (s.halted = none → ∃ a s', next s (w, a) = some s') ∧
    ∀ a s', next s (w, a) = some s' → s'.base u = .async i g .woken

/-- **No wake-up is lost.**  In every run in which no async thread joins itself, a thread that waits while events are
queued or its exit flag is set is about to be woken. -/
theorem no_lost_wakeup (h : Reach (fun s x => noSelfUnsub s x = true) maxSuberNum clients s)
    (hb : s.base u = .async i g .waiting) : WakeUp s u i g := by
  have hT := threadInv_reach h
  obtain ⟨hreuse, hW⟩ := owned_reach h
  have hO := ownInv_reach (fun _ _ h => h) hreuse
  have hu : s.waitsOn u i = true := State.waitsOn_iff.mpr ⟨g, hb⟩
  -- who comes to signal is in a call, and `u` is in none
  have hother : ∀ w, s.Pushed w i ∨ s.FlagSet w i → w ≠ u := by
    have hS := hT.stack u
    rw [hb] at hS
    rintro w (⟨f, rest, hf, -⟩ | ⟨f, rest, hf, -⟩) rfl
    · simp [hS.of_idle trivial] at hf
    · simp [hS.of_idle trivial] at hf
  have hone : ∀ s, Reach (fun s x => noSelfUnsub s x = true) maxSuberNum clients s →
      {u | s.waitsOn u i = true}.Subsingleton := fun s h => (owned_reach h).2.waiting_subsingleton i
  refine ⟨hW u i ⟨g, _, hb⟩, (hO.sid u i g _ hb).symm, fun hq => ?queue, fun hflag => ?exit, fun w hsig => ?wakes⟩
  case queue =>
    have hlaw := CondVar.noLostWakeup_reach (fun s => s.evtCond i) State.init_waiting hone
      (fun s s' x hr _ hn => evtCond_step (threadInv_reach hr) (allocInv_reach hr) hn) h
    obtain ⟨w, hw⟩ := hlaw ⟨u, hu⟩ (by simpa [State.evtCond, WrapRing.isEmpty] using hq)
    exact ⟨w, hother w (.inl hw), hw⟩
  case exit =>
    have hlaw := CondVar.noLostWakeup_reach (fun s => s.exitCond i) State.init_waiting hone
      (fun s s' x hr _ hn => exitCond_step (threadInv_reach hr) (allocInv_reach hr) hn) h
    obtain ⟨w, hw⟩ := hlaw ⟨u, hu⟩ hflag
    exact ⟨w, hother w (.inr hw), hw⟩
  case wakes =>
    refine ⟨exists_next_signal hsig, fun a s' hn => ?_⟩
    have hnone := (signalled_of_next hT hsig hn).waiting_eq_empty (hone s h)
    obtain ⟨woken, s₁, hs, hbase⟩ := next_signal hsig hn
    obtain ⟨b, rfl, hwoken⟩ := (condSignal_woken hs).eq
    rw [hbase]
    rcases hwoken u with h | ⟨g', hg', h⟩
    · have hu' : u ∈ (s'.evtCond i).waiting :=
        State.waitsOn_iff.mpr ⟨g, (congrFun hbase u).trans (h.trans hb)⟩
      simp [hnone] at hu'
    · rw [hb] at hg'
      cases hg'
      exact h

/-- One event has been posted and delivered; thread `1` waits for the next. -/
def oneDelivered : List (Tid × Act lp64) :=
  [(0, .call (.subEVT ⟨1, 1, some [7]⟩)), (0, .go),
   (0, .call (.postEVT (.ofID lp64 7) none)), (0, .go), (0, .go), (0, .go), (0, .signal none), (0, .go),
   (1, .go), (1, .go), (1, .go), (1, .ret .success), (1, .go), (1, .go), (1, .go)]

/-- The thread waits before an event, and before the exit flag. -/
theorem no_lost_wakeup_both :
    (∃ s : State lp64, (s.suber 0).evtQueue.isEmpty = false ∧ WakeUp s 1 0 1) ∧
    ∃ s : State lp64, (s.suber 0).shouldExitASyncThread = true ∧ WakeUp s 1 0 1 := by
  constructor
  · obtain ⟨s, hr, hs⟩ := reach_of_run (fun s x => noSelfUnsub s x = true) (1 : ULong lp64) 1
      (oneDelivered ++ [(0, .call (.postEVT (.ofID lp64 7) none)), (0, .go), (0, .go), (0, .go)])
      (fun s : State lp64 => decide (s.base 1 = .async 0 1 .waiting) && !(s.suber 0).evtQueue.isEmpty)
      (by decide +kernel)
    rw [Bool.and_eq_true, decide_eq_true_eq, Bool.not_eq_true'] at hs
    exact ⟨s, hs.2, no_lost_wakeup hr hs.1⟩
  · obtain ⟨s, hr, hs⟩ := reach_of_run (fun s x => noSelfUnsub s x = true) (1 : ULong lp64) 1
      (oneDelivered ++ [(0, .call (.unsubEVT none)), (0, .go), (0, .go), (0, .go)])
      (fun s : State lp64 => decide (s.base 1 = .async 0 1 .waiting) && (s.suber 0).shouldExitASyncThread)
      (by decide +kernel)
    rw [Bool.and_eq_true, decide_eq_true_eq] at hs
    exact ⟨s, hs.2, no_lost_wakeup hr hs.1⟩

end PlatIF.Ioc
