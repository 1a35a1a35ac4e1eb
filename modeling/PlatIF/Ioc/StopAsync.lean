import PlatIF.Ioc.Ownership

/-!
# Stopping an async thread

`unsubEVT` sets the exit flag of a slot, signals its thread, and joins it with the context mutex held.  The thread
has to leave its loop by its own steps: nobody else can give it the mutex meanwhile.

* `soloNext` — the thread runs alone, with given callbacks;
* `Stopping` — the state in which `unsubEVT` waits, and what the thread can be at then (`Stopping.point`);
* `stop_completes_iff` — the thread leaves its loop exactly when nothing is left or comes into its cache;
* `stop_never_completes` — one cached event is enough to keep it there.
-/

namespace PlatIF.Ioc

variable {abi : Abi} {s s' : State abi} {t U : Tid} {a : Act abi} {i : ℕ}
  {ok : State abi → Tid × Act abi → Prop} {maxSuberNum : ULong abi} {clients : ℕ}

/-! ### A thread that runs alone -/

/-- What a callback does at its invocations: the events it posts with default options, and what it returns.  The
first entry is what is left of a running invocation. -/
abbrev CbPlan (abi : Abi) := ℕ → List (EvtDesc abi) × TosResult

/-- The next step of thread `t`, whose callback follows the plan. -/
def soloNext (t : Tid) (x : State abi × CbPlan abi) : Option (State abi × CbPlan abi) :=
  match x.1.frames t with
  | .cb _ :: _ =>
    match (x.2 0).1 with
    | [] => (next x.1 (t, .ret (x.2 0).2)).map fun s => (s, fun k => x.2 (k + 1))
    | d :: ds =>
      (next x.1 (t, .call (.postEVT d none))).map fun s => (s, Function.update x.2 0 (ds, (x.2 0).2))
  | _ => (next x.1 (t, .go)).map fun s => (s, x.2)

/-- A finite number of steps of `t` alone takes it out of its loop. -/
def State.Leaves (s : State abi) (t : Tid) (plan : CbPlan abi) : Prop :=
  ∃ x, Runs.ReachUnder (fun x (_ : Unit) => soloNext t x) (fun _ _ => True) (s, plan) x ∧ x.1.base t = .gone

/-- Thread `U` waits in `unsubEVT` for the thread `t` of slot `i`. -/
structure Stopping (s : State abi) (U t : Tid) (i : ℕ) : Prop where
  joins : ∃ f rest, s.frames U = .unsub f :: rest ∧ f.pc = .join i
  thread : (s.suber i).asyncThreadID = some t
  ne : U ≠ t

/-- A call in progress on top of `t` is a `postEVT` with default options, or a replay. -/
def State.defaultCalls (s : State abi) (t : Tid) : Prop :=
  ∀ f rest, s.frames t = f :: rest → f.isApi = true →
    ∃ p, f = .post p ∧ (p.isReplay = true ∨ isNonBlock p.pOptions = false ∧ isTimeout p.pOptions = false)

/-- Where a thread can be while another one waits to join it. -/
inductive StopPoint (s : State abi) (t : Tid) (i : ℕ) : Prop
  | gone (hf : s.frames t = []) (hb : s.base t = .gone)
  | idle {g : ℕ} {pc : AsyncPc abi} (hf : s.frames t = []) (hb : s.base t = .async i g pc) (hpc : pc.idle)
  | callback {c : CbFrame abi} {g : ℕ} {d : EvtDesc abi} (hf : s.frames t = [.cb c])
      (hb : s.base t = .async i g (.inCb d))
  | posting {p : PostFrame abi} {c : CbFrame abi} {g : ℕ} {d : EvtDesc abi}
      (hf : s.frames t = [.post p, .cb c]) (hp : p.pc = .lock) (hr : p.isReplay = false)
      (ho : isNonBlock p.pOptions = false) (ho' : isTimeout p.pOptions = false)
      (hb : s.base t = .async i g (.inCb d))
  | replaying {p : PostFrame abi} {g : ℕ} {q : CachedPtr abi} (hf : s.frames t = [.post p]) (hp : p.pc = .lock)
      (hr : p.isReplay = true) (ho : p.pOptions = some optNonBlock)
      (hb : s.base t = .async i g (.replay q))

theorem Stopping.busy (hL : LockInv s) (hS : Stopping s U t i) : RecMutex.tryLock s.ctx.mutex t = none := by
  obtain ⟨f, rest, hf, hp⟩ := hS.joins
  exact RecMutex.tryLock_eq_none.mpr ⟨U, hS.ne, hL.unsub_holder hf (by simp [hp])⟩

/-- The thread has no call that holds the context mutex. -/
theorem Stopping.not_held (hL : LockInv s) (hS : Stopping s U t i) {p : PostFrame abi}
    (hp : .post p ∈ s.frames t) : p.pc = .lock := by
  by_contra hne
  obtain ⟨f, rest, hf, hpc⟩ := hS.joins
  have hU := hL.unsub_holder hf (by simp [hpc])
  exact hS.ne (RecMutex.held_unique hU (hL.holder hp (by simp [Frame.holds_post, hne])))

/-- User code of the thread is its callback. -/
theorem Stopping.userStack (hL : LockInv s) (hS : Stopping s U t i) {fs : List (Frame abi)}
    (hsub : ∀ f ∈ fs, f ∈ s.frames t) (hu : UserStack (s.base t) fs)
    (hb : s.base t = .gone ∨ s.RunsOn t i) :
    ∃ c g d, fs = [.cb c] ∧ s.base t = .async i g (.inCb d) := by
  cases hu with
  | client h => rcases hb with hb | ⟨g, pc, hb⟩ <;> simp [hb] at h
  | async h _ =>
    rcases hb with hb | ⟨g, pc, hb⟩
    · simp [hb] at h
    · rw [hb] at h
      cases h
      exact ⟨_, _, _, rfl, hb⟩
  | sync hp _ _ _ | replay hp _ _ _ _ _ =>
    have := hS.not_held hL (hsub _ (List.mem_cons_of_mem _ List.mem_cons_self))
    simp [hp] at this

theorem Stopping.point (hT : ThreadInv s) (hL : LockInv s) (hI : SlotInv s) (hS : Stopping s U t i)
    (hD : s.defaultCalls t) : StopPoint s t i := by
  have hb := (hI.thread i t hS.thread).base
  have hstack := hT.stack t
  cases hfs : s.frames t with
  | nil =>
    rw [hfs] at hstack
    rcases hstack.of_nil with h | h | ⟨j, g, pc, h, hpc⟩
    · rcases hb with hb | ⟨g, pc, hb⟩ <;> simp [hb] at h
    · exact .gone hfs h
    · rcases hb with hb | ⟨g, pc, hb⟩
      · simp [hb] at h
      · rw [hb] at h
        cases h
        exact .idle hfs hb hpc
  | cons f rest =>
    rw [hfs] at hstack
    cases hapi : f.isApi with
    | false =>
      cases f with
      | cb c =>
        obtain ⟨c', g, d, hc, hb'⟩ := hS.userStack hL (by simp [hfs]) hstack.of_cb hb
        exact .callback (hfs.trans hc) hb'
      | _ => simp [Frame.isApi] at hapi
    | true =>
      obtain ⟨p, rfl, ho⟩ := hD f rest hfs hapi
      have hp := hS.not_held hL (p := p) (by simp [hfs])
      obtain ⟨-, ⟨hr, hu⟩ | ⟨hr, rfl, j, g, q, hb', -, ho'⟩⟩ := hstack.of_post
      · obtain ⟨hnb, hto⟩ := ho.resolve_left (by simp [hr])
        obtain ⟨c, g, d, hc, hb'⟩ := hS.userStack hL (fun f hf => hfs ▸ List.mem_cons_of_mem _ hf) hu hb
        exact .posting (hfs.trans (congrArg _ hc)) hp hr hnb hto hb'
      · rcases hb with hb | ⟨g', pc, hb⟩
        · simp [hb] at hb'
        · rw [hb] at hb'
          cases hb'
          exact .replaying hfs hp hr ho' hb

/-! ### The condition -/

/-- The thread looks at its queue before it looks at its cache. -/
def AsyncPc.atHead : AsyncPc abi → Bool
  | .start | .top | .woken | .drainChk false => true
  | _ => false

/-- The replay was refused, or will be, and its cell holds an event that may be dropped. -/
def AsyncPc.drops (pc : AsyncPc abi) (x : Suber abi) : Bool :=
  match pc with
  | .replay q => (x.evtCached.cells q.cell).mayDrop
  | .drained q r => !decide (r = .success) && (x.evtCached.cells q.cell).mayDrop
  | _ => false

/-- The cache, less the entry whose replay has succeeded. -/
def AsyncPc.cacheLeft (pc : AsyncPc abi) (x : Suber abi) : WrapRing abi.ulongBits evtCachedMax (EvtDesc abi) :=
  match pc with
  | .drained _ .success => x.evtCached.pop
  | _ => x.evtCached

/-- The callback invocations that are running or still to come. -/
def AsyncPc.turns (pc : AsyncPc abi) (x : Suber abi) : ℕ :=
  match pc with
  | .call _ | .inCb _ => x.evtQueue.pending + 1
  | _ => x.evtQueue.pending

/-- The callback is in a call. -/
def posting : List (Frame abi) → Bool
  | .post p :: _ => !p.isReplay
  | _ => false

/-- The thread leaves at once, since its queue is empty and it looks there first; or it is not blocked, nothing is
left in its cache, and its callback posts nothing more. -/
def stopOk (b : Base abi) (fs : List (Frame abi)) (x : Suber abi) (plan : CbPlan abi) : Prop :=
  match b with
  | .gone => True
  | .client => False
  | .async _ _ pc =>
    pc.atHead = true ∧ x.evtQueue.isEmpty = true ∨
      pc ≠ .waiting ∧ pc.drops x = false ∧ (pc.cacheLeft x).pending = 0 ∧ posting fs = false ∧
        ∀ k, k < pc.turns x → (plan k).1 = []

def State.StopOk (s : State abi) (t : Tid) (i : ℕ) (plan : CbPlan abi) : Prop :=
  stopOk (s.base t) (s.frames t) (s.suber i) plan

/-! ### The steps of the thread -/

/-- What a step of the thread does that is being stopped. -/
inductive SoloStep (s s' : State abi) (plan plan' : CbPlan abi) (t : Tid) (i : ℕ) : Prop
  | head {g : ℕ} {pc : AsyncPc abi} (hb : s.base t = .async i g pc)
      (hpc : pc = .start ∨ pc = .drainChk false ∨ pc = .drainChk true ∧ (s.suber i).evtCached.pending = 0)
      (hf : s.frames t = []) (hf' : s'.frames t = []) (hb' : s'.base t = .async i g .top)
      (hx : s'.suber i = s.suber i) (hp : plan' = plan)
  | exit {g : ℕ} {pc : AsyncPc abi} (hb : s.base t = .async i g pc) (hpc : pc = .top ∨ pc = .woken)
      (he : (s.suber i).evtQueue.isEmpty = true) (hb' : s'.base t = .gone) (hf' : s'.frames t = [])
  | take {g : ℕ} {d : EvtDesc abi} {pc : AsyncPc abi} (hb : s.base t = .async i g pc)
      (hpc : pc = .top ∨ pc = .woken) (hf : s.frames t = []) (hf' : s'.frames t = [])
      (he : (s.suber i).evtQueue.isEmpty = false) (hb' : s'.base t = .async i g (.call d))
      (hx : s'.suber i = { s.suber i with evtQueue := (s.suber i).evtQueue.pop }) (hp : plan' = plan)
  | call {g : ℕ} {d : EvtDesc abi} {c : CbFrame abi} (hb : s.base t = .async i g (.call d))
      (hf : s.frames t = []) (hf' : s'.frames t = [.cb c]) (hb' : s'.base t = .async i g (.inCb d))
      (hx : s'.suber i = s.suber i) (hp : plan' = plan)
  | post {g : ℕ} {d : EvtDesc abi} {c : CbFrame abi} {p : PostFrame abi}
      (hb : s.base t = .async i g (.inCb d)) (hpl : (plan 0).1 ≠ []) (hf' : s'.frames t = [.post p, .cb c])
      (hr : p.isReplay = false) (ho : isNonBlock p.pOptions = false ∧ isTimeout p.pOptions = false)
      (hb' : s'.base t = s.base t)
  | cached {g : ℕ} {d : EvtDesc abi} {c : CbFrame abi} {p : PostFrame abi}
      (hb : s.base t = .async i g (.inCb d)) (hf : s.frames t = [.post p, .cb c]) (hr : p.isReplay = false)
      (hf' : s'.frames t = [.cb c]) (hb' : s'.base t = s.base t) (hc : (s'.suber i).evtCached.pending ≠ 0)
  | ret {g : ℕ} {d : EvtDesc abi} {c : CbFrame abi} (hb : s.base t = .async i g (.inCb d))
      (hf : s.frames t = [.cb c]) (hpl : (plan 0).1 = []) (hf' : s'.frames t = [])
      (hb' : s'.base t = .async i g .drain) (hx : s'.suber i = s.suber i) (hp : plan' = fun k => plan (k + 1))
  | drain {g : ℕ} (hb : s.base t = .async i g .drain) (hf : s.frames t = []) (hf' : s'.frames t = [])
      (hb' : s'.base t = .async i g (.drainChk (s.suber i).evtQueue.isEmpty))
      (hx : s'.suber i = s.suber i) (hp : plan' = plan)
  | replay {g : ℕ} {p : PostFrame abi} {q : CachedPtr abi} (hb : s.base t = .async i g (.drainChk true))
      (hc : (s.suber i).evtCached.pending ≠ 0) (hf' : s'.frames t = [.post p]) (hr : p.isReplay = true)
      (hb' : s'.base t = .async i g (.replay q)) (hx : s'.suber i = s.suber i)
  | timedOut {g : ℕ} {q : CachedPtr abi} {p : PostFrame abi} (hb : s.base t = .async i g (.replay q))
      (hf : s.frames t = [.post p]) (hr : p.isReplay = true) (hf' : s'.frames t = [])
      (hb' : s'.base t = .async i g (.drained q .timeout)) (hx : s'.suber i = s.suber i) (hp : plan' = plan)
  | retired {g : ℕ} {q : CachedPtr abi} (hb : s.base t = .async i g (.drained q .success)) (hf : s.frames t = [])
      (hf' : s'.frames t = []) (hb' : s'.base t = .async i g .drain)
      (hx : s'.suber i = { s.suber i with evtCached := (s.suber i).evtCached.pop }) (hp : plan' = plan)
  | redone {g : ℕ} {q : CachedPtr abi} {r : TosResult} (hb : s.base t = .async i g (.drained q r))
      (hr : r ≠ .success) (hd : ((s.suber i).evtCached.cells q.cell).mayDrop = false) (hf : s.frames t = []) (hf' : s'.frames t = [])
      (hb' : s'.base t = .async i g .drain) (hx : s'.suber i = s.suber i) (hp : plan' = plan)
  | dropped {g : ℕ} {q : CachedPtr abi} {r : TosResult} (hb : s.base t = .async i g (.drained q r))
      (hr : r ≠ .success) (hd : ((s.suber i).evtCached.cells q.cell).mayDrop = true) (hf' : s'.frames t = []) (hb' : s'.base t = s.base t)
      (hc : (s'.suber i).evtCached.cells = (s.suber i).evtCached.cells)

/-- A step of the loop of the thread. -/
theorem solo_loop {g : ℕ} {pc : AsyncPc abi} (plan : CbPlan abi) (hh : s.halted = none)
    (hx : (s.suber i).mutex = none) (hflag : (s.suber i).shouldExitASyncThread = true)
    (hocc : (s.suber i).args.cbProcEvtF ≠ NULL) (hf : s.frames t = []) (hb : s.base t = .async i g pc)
    (hpc : pc.idle) (hw : pc ≠ .waiting) :
    ∃ s', s.asyncStep t i g pc .go = some s' ∧ SoloStep s s' plan plan t i ∧
      (s'.halted = none ∨ ¬ s.StopOk t i plan) := by
  cases pc with
  | waiting => exact absurd rfl hw
  | inCb _ | replay _ => exact hpc.elim
  | start => exact ⟨_, rfl, .head hb (.inl rfl) hf hf (Function.update_self ..) rfl rfl, .inl hh⟩
  | top | woken =>
    cases he : (s.suber i).evtQueue.isEmpty with
    | true =>
      refine ⟨s.setBase t .gone, ?_, .exit hb (by simp) he (by simp) hf, .inl hh⟩
      simp [State.asyncStep, consume_of_mutex hx, hflag, he]
    | false =>
      refine ⟨(s.setSuber i { s.suber i with evtQueue := (s.suber i).evtQueue.pop }).setBase t
        (.async i g (.call (s.suber i).evtQueue.front)), ?_, .take hb (by simp) hf hf he
        (Function.update_self ..) (by simp [State.suber]) rfl, .inl hh⟩
      simp [State.asyncStep, consume_of_mutex hx, hflag, he]
  | call d =>
    have hcall : s.asyncStep t i g (.call d) .go = some (s.asyncCall t i g d) := rfl
    rw [hcall]
    unfold State.asyncCall
    rw [if_neg hocc]
    exact ⟨_, rfl, .call hb hf (Function.update_self ..) (by simp) rfl rfl, .inl hh⟩
  | drain =>
    refine ⟨s.setBase t (.async i g (.drainChk (s.suber i).evtQueue.isEmpty)), ?_,
      .drain hb hf hf (by simp) rfl rfl, .inl hh⟩
    simp only [State.asyncStep, Suber.lock_of_mutex hx, Suber.unlock_of_mutex hx, State.setSuber_self]
  | drainChk e =>
    have hnext : s.asyncStep t i g (.drainChk e) .go = some (s.drainNext t i g e) := rfl
    rw [hnext]
    unfold State.drainNext
    by_cases hc : e = true ∧ (s.suber i).evtCached.pending ≠ 0
    · obtain ⟨rfl, hc⟩ := hc
      rw [if_pos (by simpa using Nat.pos_of_ne_zero hc)]
      exact ⟨_, rfl, .replay hb hc (Function.update_self ..) rfl (Function.update_self ..) rfl, .inl hh⟩
    · rw [if_neg (by simpa [Nat.pos_iff_ne_zero] using hc)]
      refine ⟨_, rfl, .head hb ?_ hf hf (Function.update_self ..) rfl rfl, .inl hh⟩
      cases e <;> simp_all
  | drained q r =>
    by_cases hr : r = .success
    · subst hr
      exact ⟨(s.retire t i).setBase t (.async i g .drain), rfl,
        .retired hb hf hf (Function.update_self ..) (by simp [State.suber]) rfl, .inl hh⟩
    · cases hd : ((s.suber i).evtCached.cells q.cell).mayDrop with
      | true =>
        refine ⟨(s.retire t i).halt .abort, by simp [State.asyncStep, State.drainResult, hr, hd],
          .dropped hb hr hd hf rfl (by simp [State.suber, WrapRing.pop]), .inr ?_⟩
        simp [State.StopOk, stopOk, hb, AsyncPc.atHead, AsyncPc.drops, hr, hd]
      | false =>
        refine ⟨s.setBase t (.async i g .drain), by simp [State.asyncStep, State.drainResult, hr, hd],
          .redone hb hr hd hf hf (Function.update_self ..) rfl rfl, .inl hh⟩

/-- A step of the callback. -/
theorem solo_callback {g : ℕ} {d : EvtDesc abi} {c : CbFrame abi} (plan : CbPlan abi) (hh : s.halted = none)
    (hf : s.frames t = [.cb c]) (hb : s.base t = .async i g (.inCb d)) :
    ∃ s' plan', soloNext t (s, plan) = some (s', plan') ∧ SoloStep s s' plan plan' t i ∧ s'.halted = none := by
  cases hpl : (plan 0).1 with
  | nil =>
    refine ⟨((s.setFrames t []).setBase t (.async i g .drain)).obs (.cbRet c.sid t (plan 0).2),
      fun k => plan (k + 1), ?_, .ret hb hf hpl (Function.update_self ..) (Function.update_self ..) rfl rfl, hh⟩
    simp [soloNext, hf, hpl, next, State.step, hh, State.cbReturn, hb]
  | cons e es =>
    refine ⟨s.setFrames t (s.frameOf t (.postEVT e none) :: s.frames t),
      Function.update plan 0 (es, (plan 0).2), ?_, .post (c := c)
        (p := ⟨e, none, .lock, .bug, false, false, s.depth t, s.ctx.pEvtSubers, [], []⟩) hb (by simp [hpl]) ?_ rfl
        ⟨rfl, rfl⟩ rfl, hh⟩
    · simp [soloNext, hf, hpl, next, State.step, hh, State.userStep]
    · simp [hf, State.frameOf]

/-- The cache is not empty after a post to it, whether or not there was room. -/
theorem postCached_pending (s : State abi) (t : Tid) (p : PostFrame abi) (rest : List (Frame abi)) (i : ℕ) :
    ((s.postCached t p rest i).suber i).evtCached.pending ≠ 0 := by
  unfold State.postCached
  split
  · rename_i hroom
    have hlt := (WrapRing.hasRoom_iff _).mp hroom
    have hpow : evtCachedMax < 2 ^ abi.ulongBits := lt_of_lt_of_le (by decide) abi.pow_le
    simp [State.suber, WrapRing.pending_push _ _ (Nat.lt_of_le_of_lt hlt hpow)]
  · rename_i hroom
    rw [WrapRing.hasRoom_iff] at hroom
    simp only [State.suber, State.retPost_ctx]
    intro h0
    simp [State.suber, h0] at hroom

/-- A post of the callback finds the context mutex taken, and caches its event. -/
theorem solo_posting {g : ℕ} {d : EvtDesc abi} {p : PostFrame abi} {c : CbFrame abi} (plan : CbPlan abi)
    (hh : s.halted = none) (hbusy : RecMutex.tryLock s.ctx.mutex t = none) (htls : s.tls t = some i)
    (hf : s.frames t = [.post p, .cb c]) (hp : p.pc = .lock) (hr : p.isReplay = false)
    (ho : isNonBlock p.pOptions = false) (ho' : isTimeout p.pOptions = false)
    (hb : s.base t = .async i g (.inCb d)) :
    ∃ s', soloNext t (s, plan) = some (s', plan) ∧ SoloStep s s' plan plan t i ∧ s'.halted = none := by
  have hsolo : soloNext t (s, plan) = some (s.postCached t p [.cb c] i, plan) := by
    simp [soloNext, hf, next, State.step, hh, State.postStep, hp, State.postLock, hbusy, ho, ho', htls]
  refine ⟨_, hsolo, .cached (c := c) hb hf hr ?_ ?_ (postCached_pending s t p _ i), ?_⟩
  · unfold State.postCached
    split <;> simp
  · unfold State.postCached
    split <;> simp [State.retPost, hr]
  · unfold State.postCached
    split <;> simpa using hh

/-- The thread never has to wait for its own steps, unless it is blocked on its condition. -/
theorem solo_step (hT : ThreadInv s) (hL : LockInv s) (hI : SlotInv s) (hH : HolderInv s) (hM : MutexFree s)
    (hh : s.halted = none) (hS : Stopping s U t i) (hD : s.defaultCalls t) (plan : CbPlan abi) :
    (s.base t = .gone ∨ ∃ g, s.base t = .async i g .waiting) ∧ soloNext t (s, plan) = none ∨
      ∃ s' plan', soloNext t (s, plan) = some (s', plan') ∧ SoloStep s s' plan plan' t i ∧
        (s'.halted = none ∨ ¬ s.StopOk t i plan) := by
  have hx := hM hh i
  have hbusy := hS.busy hL
  have hth := hI.thread i t hS.thread
  have hflag : (s.suber i).shouldExitASyncThread = true := by
    obtain ⟨f, rest, hf, hp⟩ := hS.joins
    exact (hH.unsub U f rest i hf (by rw [hp]; rfl)).flag (by rw [hp]; rfl)
  cases hS.point hT hL hI hD with
  | gone hf hb =>
    exact .inl ⟨.inl hb, by simp [soloNext, hf, next, State.step, hh, hb]⟩
  | @idle g pc hf hb hpc =>
    have hsolo : soloNext t (s, plan) = (s.asyncStep t i g pc .go).map fun s => (s, plan) := by
      simp [soloNext, hf, next, State.step, hh, hb]
    by_cases hw : pc = .waiting
    · subst hw
      exact .inl ⟨.inr ⟨g, hb⟩, hsolo⟩
    · obtain ⟨s', hs', hstep, hok⟩ := solo_loop plan hh hx hflag hth.occupied hf hb hpc hw
      exact .inr ⟨s', plan, by rw [hsolo, hs']; rfl, hstep, hok⟩
  | callback hf hb =>
    obtain ⟨s', plan', hs', hstep, hok⟩ := solo_callback plan hh hf hb
    exact .inr ⟨s', plan', hs', hstep, .inl hok⟩
  | posting hf hp hr ho ho' hb =>
    obtain ⟨s', hs', hstep, hok⟩ := solo_posting plan hh hbusy (hT.tls t i _ _ hb (by simp)) hf hp hr ho ho' hb
    exact .inr ⟨s', plan, hs', hstep, .inl hok⟩
  | @replaying p g q hf hp hr ho hb =>
    have hsolo : soloNext t (s, plan) = some (s.retPost t p [] .timeout, plan) := by
      simp [soloNext, hf, next, State.step, hh, State.postStep, hp, State.postLock, hbusy, ho]
    refine .inr ⟨_, _, hsolo, .timedOut hb hf hr (by simp) ?_ (by simp [State.suber]) rfl,
      .inl (by simpa using hh)⟩
    simp [State.retPost, hr, hb]

/-- The condition is the same before and after a step of the thread. -/
theorem SoloStep.stopOk_iff {plan plan' : CbPlan abi} (h : SoloStep s s' plan plan' t i) :
    s'.StopOk t i plan' ↔ s.StopOk t i plan := by
  unfold State.StopOk
  cases h with
  | @head g pc hb hpc hf hf' hb' hx hp =>
    have hempty := WrapRing.isEmpty_iff_pending (s.suber i).evtQueue
    rw [hb, hb', hf, hf', hx, hp]
    rcases hpc with rfl | rfl | ⟨rfl, hc⟩
    · simp [stopOk, AsyncPc.atHead, AsyncPc.drops, AsyncPc.cacheLeft, AsyncPc.turns]
    · simp [stopOk, AsyncPc.atHead, AsyncPc.drops, AsyncPc.cacheLeft, AsyncPc.turns]
    · -- with an empty queue and an empty cache nothing is left to do
      simp only [stopOk, AsyncPc.atHead, AsyncPc.drops, AsyncPc.cacheLeft, AsyncPc.turns, posting, hempty, hc]
      simp +contextual
  | @exit g pc hb hpc he hb' hf' =>
    rw [hb, hb']
    rcases hpc with rfl | rfl <;> simp [stopOk, AsyncPc.atHead, he]
  | @take g d pc hb hpc hf hf' he hb' hx hp =>
    have hne : (s.suber i).evtQueue.pending ≠ 0 := fun h0 => by
      simp [(WrapRing.isEmpty_iff_pending _).mpr h0] at he
    have hpop := WrapRing.pending_pop _ hne
    rw [hb, hb', hf, hf', hx, hp]
    rcases hpc with rfl | rfl <;>
      simp [stopOk, AsyncPc.atHead, AsyncPc.drops, AsyncPc.cacheLeft, AsyncPc.turns, he, hpop]
  | call hb hf hf' hb' hx hp =>
    rw [hb, hb', hf, hf', hx, hp]
    simp [stopOk, AsyncPc.atHead, AsyncPc.drops, AsyncPc.cacheLeft, AsyncPc.turns, posting]
  | post hb hpl hf' hr ho hb' =>
    rw [hb', hb, hf']
    have hno : ¬ ∀ k, k < (s.suber i).evtQueue.pending + 1 → (plan k).1 = [] := fun h =>
      hpl (h 0 (Nat.succ_pos _))
    simp only [stopOk, AsyncPc.atHead, AsyncPc.turns, posting, hr, hno]
    simp
  | cached hb hf hr hf' hb' hc =>
    rw [hb', hb, hf]
    simp [stopOk, AsyncPc.atHead, AsyncPc.cacheLeft, posting, hr, hc]
  | ret hb hf hpl hf' hb' hx hp =>
    have hsucc : (∀ k, k < (s.suber i).evtQueue.pending + 1 → (plan k).1 = []) ↔
        ∀ k, k < (s.suber i).evtQueue.pending → (plan (k + 1)).1 = [] := by
      refine ⟨fun h k hk => h (k + 1) (Nat.succ_lt_succ hk), fun h k hk => ?_⟩
      cases k with
      | zero => exact hpl
      | succ k => exact h k (Nat.lt_of_succ_lt_succ hk)
    rw [hb, hb', hf, hf', hx, hp]
    simp only [stopOk, AsyncPc.atHead, AsyncPc.drops, AsyncPc.cacheLeft, AsyncPc.turns, posting, hsucc]
    simp
  | drain hb hf hf' hb' hx hp =>
    rw [hb, hb', hf, hf', hx, hp]
    cases he : (s.suber i).evtQueue.isEmpty <;>
      simp [stopOk, AsyncPc.atHead, AsyncPc.drops, AsyncPc.cacheLeft, AsyncPc.turns, he]
  | replay hb hc hf' hr hb' hx =>
    rw [hb, hb', hf', hx]
    simp [stopOk, AsyncPc.atHead, AsyncPc.cacheLeft, hc]
  | timedOut hb hf hr hf' hb' hx hp =>
    rw [hb, hb', hf, hf', hx, hp]
    simp [stopOk, AsyncPc.atHead, AsyncPc.drops, AsyncPc.cacheLeft, AsyncPc.turns, posting, hr]
  | retired hb hf hf' hb' hx hp =>
    rw [hb, hb', hf, hf', hx, hp]
    simp [stopOk, AsyncPc.atHead, AsyncPc.drops, AsyncPc.cacheLeft, AsyncPc.turns]
  | @redone g q r hb hr hd hf hf' hb' hx hp =>
    have hleft : (AsyncPc.drained q r).cacheLeft (s.suber i) = (s.suber i).evtCached := by
      cases r <;> first | exact absurd rfl hr | rfl
    rw [hb, hb', hf, hf', hx, hp]
    simp [stopOk, AsyncPc.atHead, AsyncPc.drops, hleft, AsyncPc.turns, hd]
    simp [AsyncPc.cacheLeft]
  | dropped hb hr hd hf' hb' hc =>
    rw [hb', hb]
    simp [stopOk, AsyncPc.atHead, AsyncPc.drops, hr, hd, hc]

/-- How far the thread is from its exit. -/
def stopRank (b : Base abi) (x : Suber abi) : ℕ :=
  match b with
  | .gone => 0
  | .client => 0
  | .async _ _ pc =>
    7 * x.evtQueue.pending +
      match pc with
      | .top | .woken => 1
      | .start | .drainChk _ => 2
      | .drain => 3
      | .drained .. => 4
      | .inCb _ | .replay _ => 5
      | .call _ => 6
      | .waiting => 7

theorem SoloStep.rank_lt {plan plan' : CbPlan abi} (h : SoloStep s s' plan plan' t i) (hok : s.StopOk t i plan) :
    stopRank (s'.base t) (s'.suber i) < stopRank (s.base t) (s.suber i) := by
  unfold State.StopOk at hok
  cases h with
  | head hb hpc hf hf' hb' hx hp =>
    rw [hb, hb', hx]
    rcases hpc with rfl | rfl | ⟨rfl, -⟩ <;> simp [stopRank]
  | exit hb hpc he hb' hf' =>
    rw [hb, hb']
    rcases hpc with rfl | rfl <;> simp [stopRank]
  | take hb hpc hf hf' he hb' hx hp =>
    have hne : (s.suber i).evtQueue.pending ≠ 0 := fun h0 => by
      simp [(WrapRing.isEmpty_iff_pending _).mpr h0] at he
    have hpop := WrapRing.pending_pop _ hne
    rw [hb, hb', hx]
    rcases hpc with rfl | rfl <;> simp only [stopRank] <;> omega
  | call hb hf hf' hb' hx hp | drain hb hf hf' hb' hx hp =>
    rw [hb, hb', hx]
    simp [stopRank]
  | post hb hpl hf' hr ho hb' =>
    -- the condition excludes further posts
    rw [hb] at hok
    simp only [stopOk, AsyncPc.atHead, AsyncPc.turns, Bool.false_eq_true, false_and, false_or] at hok
    exact absurd (hok.2.2.2.2 0 (Nat.succ_pos _)) hpl
  | cached hb hf hr hf' hb' hc =>
    rw [hb, hf] at hok
    simp [stopOk, AsyncPc.atHead, posting, hr] at hok
  | ret hb hf hpl hf' hb' hx hp =>
    rw [hb, hb', hx]
    simp [stopRank]
  | replay hb hc hf' hr hb' hx =>
    rw [hb] at hok
    simp [stopOk, AsyncPc.atHead, AsyncPc.cacheLeft, hc] at hok
  | timedOut hb hf hr hf' hb' hx hp | retired hb hf hf' hb' hx hp | redone hb hr hd hf hf' hb' hx hp =>
    rw [hb, hb', hx]
    simp [stopRank]
  | dropped hb hr hd hf' hb' hc =>
    rw [hb] at hok
    simp [stopOk, AsyncPc.atHead, AsyncPc.drops, hr, hd] at hok

/-- The callback goes on to call nothing but `postEVT` with default options. -/
theorem SoloStep.defaultCalls {plan plan' : CbPlan abi} (h : SoloStep s s' plan plan' t i) :
    s'.defaultCalls t := by
  have hnil : s'.frames t = [] → s'.defaultCalls t := fun hf f rest hf' => by simp [hf] at hf'
  have hcb : ∀ {c rest}, s'.frames t = .cb c :: rest → s'.defaultCalls t := fun hf f rest hf' hapi => by
    rw [hf, List.cons.injEq] at hf'
    simp [← hf'.1, Frame.isApi] at hapi
  have hpost : ∀ {p rest}, s'.frames t = .post p :: rest →
      (p.isReplay = true ∨ isNonBlock p.pOptions = false ∧ isTimeout p.pOptions = false) → s'.defaultCalls t :=
    fun {p rest} hf hp f rest' hf' _ => by
      rw [hf, List.cons.injEq] at hf'
      exact ⟨p, hf'.1.symm, hp⟩
  cases h
  case post hf' hr ho _ => exact hpost hf' (.inr ho)
  case replay hf' hr _ _ => exact hpost hf' (.inl hr)
  case call hf' _ _ _ => exact hcb hf'
  case cached hf' _ _ => exact hcb hf'
  all_goals exact hnil ‹s'.frames t = []›

/-- The steps of a thread alone are steps of the process. -/
theorem soloNext_next {x y : State abi × CbPlan abi} (h : soloNext t x = some y) :
    ∃ a, next x.1 (t, a) = some y.1 := by
  unfold soloNext at h
  split at h
  · split at h
    all_goals
      obtain ⟨s, hs, rfl⟩ := Option.map_eq_some_iff.mp h
      exact ⟨_, hs⟩
  · obtain ⟨s, hs, rfl⟩ := Option.map_eq_some_iff.mp h
    exact ⟨_, hs⟩

/-- The wait in `unsubEVT` outlasts the steps of the thread. -/
theorem Stopping.next (hL : LockInv s) (hS : Stopping s U t i) (h : Trans s t a s') : Stopping s' U t i := by
  obtain ⟨f, rest, hf, hp⟩ := hS.joins
  have hs := h.sameTable hL hS.ne (hL.unsub_holder hf (by simp [hp]))
  exact ⟨⟨f, rest, by rw [h.frames_ne hS.ne, hf], hp⟩, (hs.slot i).asyncThreadID.trans hS.thread, hS.ne⟩

/-- What holds of the thread and the process while the thread runs alone. -/
structure SoloInv (maxSuberNum : ULong abi) (clients : ℕ) (U t : Tid) (i : ℕ) (x : State abi × CbPlan abi) :
    Prop where
  reach : Reach (fun _ _ => True) maxSuberNum clients x.1
  stopping : Stopping x.1 U t i
  calls : x.1.defaultCalls t
  halted : x.1.halted ≠ none → ¬ x.1.StopOk t i x.2

theorem SoloInv.step {x : State abi × CbPlan abi} (h : SoloInv maxSuberNum clients U t i x)
    (hh : x.1.halted = none) : (x.1.base t = .gone ∨ ∃ g, x.1.base t = .async i g .waiting) ∧ soloNext t x = none ∨
      ∃ s' plan', soloNext t x = some (s', plan') ∧ SoloStep x.1 s' x.2 plan' t i ∧
        (s'.halted = none ∨ ¬ x.1.StopOk t i x.2) :=
  solo_step (threadInv_reach h.reach) (lockInv_reach h.reach) (slotInv_reach h.reach) (holderInv_reach h.reach)
    (mutexFree_reach h.reach) hh h.stopping h.calls x.2

theorem SoloInv.next {x y : State abi × CbPlan abi} (h : SoloInv maxSuberNum clients U t i x)
    (hn : soloNext t x = some y) :
    SoloStep x.1 y.1 x.2 y.2 t i ∧ SoloInv maxSuberNum clients U t i y := by
  obtain ⟨a, hn'⟩ := soloNext_next hn
  rcases h.step (next_trans hn').1 with ⟨-, h0⟩ | ⟨s', plan', h0, hs, hh⟩
  · simp [h0] at hn
  · rw [h0, Option.some.injEq] at hn
    subst hn
    refine ⟨hs, h.reach.tail _ trivial hn', h.stopping.next (lockInv_reach h.reach) (next_trans hn').2,
      hs.defaultCalls, fun hne hok => ?_⟩
    exact hh.elim hne fun hno => hno (hs.stopOk_iff.mp hok)

/-- Where the condition holds the thread comes closer to its exit, and elsewhere it never gets there. -/
theorem SoloInv.leaves_iff {x : State abi × CbPlan abi} (h : SoloInv maxSuberNum clients U t i x) :
    x.1.Leaves t x.2 ↔ x.1.StopOk t i x.2 := by
  refine Runs.ReachUnder.goal_iff (P := fun x => x.1.StopOk t i x.2)
    (fun x => stopRank (x.1.base t) (x.1.suber i)) (I := SoloInv maxSuberNum clients U t i)
    (fun x y _ hI _ hn => (hI.next hn).2) (fun x hb => ?_)
    (fun x y _ hI _ hn hy => (hI.next hn).1.stopOk_iff.mp hy) (fun x hI hok hb => ?_) h
  · unfold State.StopOk
    rw [hb]
    trivial
  · have hh : x.1.halted = none := not_not.mp fun hne => hI.halted hne hok
    rcases hI.step hh with ⟨hg | ⟨g, hg⟩, -⟩ | ⟨s', plan', hn, hs, -⟩
    · exact absurd hg hb
    · unfold State.StopOk at hok
      rw [hg] at hok
      simp [stopOk, AsyncPc.atHead] at hok
    · exact ⟨(), (s', plan'), trivial, hn, hs.stopOk_iff.mpr hok, hs.rank_lt hok⟩

theorem soloInv (hr : Reach ok maxSuberNum clients s) (hh : s.halted = none) (hS : Stopping s U t i)
    (hD : s.defaultCalls t) (plan : CbPlan abi) : SoloInv maxSuberNum clients U t i (s, plan) :=
  ⟨hr.mono fun _ _ _ => trivial, hS, hD, fun hne => absurd hh hne⟩

/-- **A stop request can complete exactly when the cache is and stays empty.**  While `U` waits in `unsubEVT` for
the thread `t` of slot `i`, the steps of `t` alone take it out of its loop exactly when it is about to leave, or is
not blocked on its condition, has nothing left in its cache, and its callback posts nothing more. -/
theorem stop_completes_iff (hr : Reach ok maxSuberNum clients s) (hh : s.halted = none) (hS : Stopping s U t i)
    (hD : s.defaultCalls t) (plan : CbPlan abi) : s.Leaves t plan ↔ s.StopOk t i plan :=
  (soloInv hr hh hS hD plan).leaves_iff

/-- A subscription, and the post of its event up to the rest of the fan-out. -/
def postedFirst : List (Tid × Act lp64) :=
  [(0, .call (.subEVT ⟨1, 1, some [7]⟩)), (0, .go),
   (0, .call (.postEVT (.ofID lp64 7) none)), (0, .go), (0, .go), (0, .go), (0, .signal none)]

/-- Its callback starts, and it is unsubscribed. -/
def stopFirst : List (Tid × Act lp64) :=
  [(1, .go), (1, .go), (1, .go),
   (0, .call (.unsubEVT (some ⟨1, 1⟩))), (0, .go), (0, .go), (0, .go), (0, .signal none)]

/-- The test of these states: thread 0 is at the join of slot 0, whose thread 1 runs its callback. -/
def stoppingFirst (s : State lp64) : Bool :=
  (match s.frames 0 with
    | [.unsub f] => decide (f.pc = .join 0)
    | _ => false) &&
  (match s.frames 1 with
    | [.cb _] => true
    | _ => false) &&
  s.halted == none && (s.suber 0).asyncThreadID == some 1

theorem stopping_of_first {s : State lp64} (h : stoppingFirst s = true) :
    s.halted = none ∧ Stopping s 0 1 0 ∧ (∃ c, s.frames 1 = [.cb c]) ∧ s.defaultCalls 1 := by
  simp only [stoppingFirst, Bool.and_eq_true, beq_iff_eq] at h
  obtain ⟨⟨⟨h0, h1⟩, hh⟩, hx⟩ := h
  split at h0
  case h_2 => simp at h0
  case h_1 f hf =>
    split at h1
    case h_2 => simp at h1
    case h_1 c hc =>
      refine ⟨hh, ⟨⟨f, [], hf, of_decide_eq_true h0⟩, hx, by decide⟩, ⟨c, hc⟩, fun g rest hg hapi => ?_⟩
      rw [hc, List.cons.injEq] at hg
      rw [← hg.1] at hapi
      simp [Frame.isApi] at hapi

/-- A callback that caches one event while it is being stopped, and then posts nothing more. -/
theorem stop_never_completes :
    ∃ s : State lp64, Reach (fun s x => noSelfUnsub s x) (initMaxSuberNum lp64) 1 s ∧ s.halted = none ∧
      Stopping s 0 1 0 ∧ s.defaultCalls 1 ∧ ¬ s.Leaves 1 fun _ => ([], .success) := by
  obtain ⟨s, hr, hs⟩ := reach_of_run (fun s x => noSelfUnsub s x) (initMaxSuberNum lp64) 1
    (postedFirst ++ List.replicate 32 (0, .go) ++ stopFirst ++
      [(1, .call (.postEVT (.ofID lp64 8) none)), (1, .go)])
    (fun s => stoppingFirst s && decide ((s.suber 0).evtCached.pending = 1) &&
      decide (s.base 1 = .async 0 1 (.inCb (.ofID lp64 7)))) (by decide +kernel)
  simp only [Bool.and_eq_true, decide_eq_true_eq] at hs
  obtain ⟨⟨hs, hcache⟩, hb⟩ := hs
  obtain ⟨hh, hS, -, hD⟩ := stopping_of_first hs
  refine ⟨s, hr, hh, hS, hD, fun hleaves => ?_⟩
  have hok := (soloInv hr hh hS hD _).leaves_iff.mp hleaves
  simp [State.StopOk, stopOk, hb, AsyncPc.atHead, AsyncPc.cacheLeft, hcache] at hok

/-- A callback that posts nothing more, with nothing cached. -/
theorem stop_completes_iff_first :
    ∃ s : State lp64, Stopping s 0 1 0 ∧ s.Leaves 1 fun _ => ([], .success) := by
  obtain ⟨s, hr, hs⟩ := reach_of_run (fun _ _ => True) (1 : ULong lp64) 1
    (postedFirst ++ [(0, .go)] ++ stopFirst)
    (fun s => stoppingFirst s && decide ((s.suber 0).evtCached.pending = 0) &&
      decide (s.base 1 = .async 0 1 (.inCb (.ofID lp64 7)))) (by decide +kernel)
  simp only [Bool.and_eq_true, decide_eq_true_eq] at hs
  obtain ⟨⟨hs, hcache⟩, hb⟩ := hs
  obtain ⟨hh, hS, ⟨c, hc⟩, hD⟩ := stopping_of_first hs
  refine ⟨s, hS, (stop_completes_iff hr hh hS hD _).mpr ?_⟩
  simp [State.StopOk, stopOk, hb, hc, AsyncPc.atHead, AsyncPc.drops, AsyncPc.cacheLeft, posting, hcache]

end PlatIF.Ioc
