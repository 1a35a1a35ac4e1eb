import PlatIF.Evt.Shape

/-!
# The life cycle of the queues

At most one queue is in use at a time: the one in `_mEvtQueueProcer[0]`.  It is the queue of every processor thread
that has not ended, and of every post made by a callback.  `PLT_EVT_enableEvtManger` and `PLT_EVT_disableEvtManger`
set it up and stop it in several steps, but under the state lock.

* `StateLock` — who is in the middle of these calls holds the state lock;
* `State.Phase` — what holds at each of their program points;
* `LiveInv` — which queues and processors there are.
-/

namespace PlatIF.Evt

variable {abi : Abi} {s s' : State abi} {t u : Thread} {a : Act abi} {env : Env} {clients : ℕ}
  {ok : State abi → Thread × Act abi → Prop}

/-- The processor runs or waits. -/
def ProcerPc.alive (pc : ProcerPc) : Prop := pc ≠ .absent ∧ pc ≠ .ended

theorem ProcerPc.alive_of_isInCb {pc : ProcerPc} (h : pc.isInCb = true) : pc.alive := by
  cases pc <;> simp_all [isInCb, alive]

/-! ### The state lock -/

/-- The call has locked the manager's state and not unlocked it. -/
def Call.holdsState : Call abi → Bool
  | .enableEvtManger .lock | .disableEvtManger .lock => false
  | .enableEvtManger _ | .disableEvtManger _ => true
  | _ => false

/-- A thread in the middle of enabling or disabling holds the state lock. -/
def StateLock (s : State abi) : Prop :=
  ∀ t c, s.calls t = some c → c.holdsState = true → s.stateWLock = some t

/-- What a step on the tables leaves as the rest of a call. -/
theorem TableStep.rest {c : Call abi} {m : Manger abi} {n : ℕ} {c' : Option (Call abi)} {os : List (Obs abi)}
    (h : TableStep s t env c m n c' os) :
    (∀ x, c' = some x → x.holdsState = false) ∧
      (∀ id arg q, c' ≠ some (.postEvtSRT id arg (.signal q))) ∧
      (∀ id arg p, c' = some (.postEvtSRT id arg (.lock p)) → p = s.evtQueue) := by
  cases h <;> simp [Call.holdsState]

/-- A step on the tables belongs to a call that does not hold the state lock. -/
theorem TableStep.holdsState {c : Call abi} {m : Manger abi} {n : ℕ} {c' : Option (Call abi)} {os : List (Obs abi)}
    (h : TableStep s t env c m n c' os) : c.holdsState = false := by
  cases h <;> rfl

/-- A call starts before its first lock. -/
theorem Api.toCall_ne (api : Api abi) :
    api.toCall.holdsState = false ∧ (∀ id arg q, api.toCall ≠ .postEvtSRT id arg (.signal q)) ∧
      ∀ id arg p, api.toCall ≠ .postEvtSRT id arg (.lock p) := by
  cases api <;> simp [Api.toCall, Call.holdsState]

/-- A step that sets up or stops a queue needs the state lock, and has it after unless it gives it back. -/
theorem LifeStep.lock {c : Call abi} (h : LifeStep s t c s') (hX : StateLock s) (hc : s.calls t = some c) :
    (s.stateWLock = none ∨ s.stateWLock = some t) ∧ (∀ x, s'.calls t = some x → s'.stateWLock = some t) := by
  cases h with
  | enable hw | disable hw => simp [hw]
  | initMutex | initCond | create | destroyMutex | destroyCond | free | clear =>
    have hlock := hX t _ hc rfl
    simp [hlock]
  | enabled | disabled =>
    have hlock := hX t _ hc rfl
    simp [hlock]

theorem stateLock_trans (hX : StateLock s) (h : Trans s t a s') : StateLock s' := by
  intro u c hu hx
  by_cases hut : u = t
  · subst hut
    cases h with
    | @call api =>
      simp only [State.setCall, Function.update_self, Option.some.injEq] at hu
      simp [← hu, api.toCall_ne.1] at hx
    | table ha hc htab =>
      simp only [State.tableStep, Function.update_self] at hu
      simp [htab.rest.1 c hu] at hx
    | life ha hc hl => exact (hl.lock hX hc).2 c hu
    | cancelJoin | signal => simp at hu
    | post =>
      simp only [State.obs, State.setCall, Function.update_self, Option.some.injEq] at hu
      simp [← hu, Call.holdsState] at hx
    | _ => exact hX u c hu hx
  · rw [h.calls_ne hut] at hu
    have hlock := hX u c hu hx
    cases h with
    | life ha hc hl =>
      -- the thread that steps would hold the lock
      rcases (hl.lock hX hc).1 with hw | hw <;> simp [hlock, hut] at hw
    | post => simpa using hlock
    | signal => simpa using hlock
    | _ => exact hlock

theorem stateLock_reach (h : Reach ok clients s) : StateLock s :=
  h.induction (fun t c hc => by simp [State.init] at hc) fun _ _ _ _ _ hX _ _ h => stateLock_trans hX h

/-! ### The manager's part -/

/-- The queue there will be has a depth. -/
structure Manger.Life (m : Manger abi) : Prop where
  queueNum : m.mayEvtQueueNumMax = 1
  depth : m.mayEvtDescQueueNumMax ≠ 0
  uninited : m.state = .uninited → m.evtQueueProcer = none

theorem Manger.limit_ne_zero {w : ℕ} {param old : BitVec w} (h : old ≠ 0) : limit param old ≠ 0 := by
  unfold limit
  split
  · exact h
  · assumption

theorem Manger.Life.init : (Manger.init : Manger abi).Life where
  queueNum := rfl
  depth := by simp [Manger.init]
  uninited _ := rfl

theorem Manger.Life.sameShape {m m' : Manger abi} (h : m.Life) (hs : m.SameShape m') : m'.Life where
  queueNum := hs.mayEvtQueueNumMax.trans h.queueNum
  depth := hs.mayEvtDescQueueNumMax ▸ h.depth
  uninited hu := hs.evtQueueProcer.trans (h.uninited (hs.state ▸ hu))

/-- A manager that has a queue is initialized. -/
theorem Manger.Life.inited {m : Manger abi} (h : m.Life) {q : ℕ} (hq : m.evtQueue = some q) : m.state ≠ .uninited := by
  intro hu
  simp [Manger.evtQueue, h.uninited hu] at hq

/-- An initialization never touches a manager that has a queue. -/
theorem Manger.Life.initStep {m m' : Manger abi} {args : Option EvtMangerModArgs} {r : TosResult} (h : m.Life)
    (hi : InitStep m args env r m') :
    m'.Life ∧ m'.evtQueue = m.evtQueue ∧ (m.state = .ready → m'.state = .ready) ∧
      (m'.state = .running ↔ m.state = .running) := by
  cases hi with
  | badState => exact ⟨h, rfl, id, .rfl⟩
  | null hs ha =>
    refine ⟨⟨h.queueNum, h.depth, fun hu => by simp at hu⟩, rfl, by simp, by simp [hs]⟩
  | done hs ha hm =>
    have hq : m.evtQueueProcer = none := h.uninited hs
    rw [initTables_success m hm]
    refine ⟨⟨h.queueNum, limit_ne_zero h.depth, fun hu => by simp at hu⟩, ?_, by simp, by simp [hs]⟩
    simp [Manger.evtQueue, Table.calloc, hq]
  | failed hs ha hm hr =>
    have hq : m.evtQueueProcer = none := h.uninited hs
    obtain ⟨-, hst, -, -, -, h4, hn, -, -, -, hd⟩ := initTables_failure m hm hr
    refine ⟨⟨hn.trans h.queueNum, ?_, fun _ => h4⟩, ?_, by simp [hs], by rw [hst]⟩
    · rcases hd with hd | hd <;> rw [hd]
      exacts [h.depth, limit_ne_zero h.depth]
    · simp [Manger.evtQueue, h4, hq]

/-- The one entry of the table of queues is free. -/
theorem Manger.Life.firstFree {m : Manger abi} (h : m.Life) {tab : Table ℕ} {idx : ℕ}
    (hf : tab.firstFree m.mayEvtQueueNumMax.toNat = some idx) : idx = 0 ∧ tab.entry 0 = none := by
  rw [h.queueNum] at hf
  have hmem := List.mem_of_find?_eq_some hf
  have hnone := List.find?_some hf
  have h0 : idx = 0 := by simpa using hmem
  subst h0
  exact ⟨rfl, by simpa using hnone⟩

/-! ### Queues and processors -/

/-- The queue is initialized and nothing of it is destroyed. -/
structure QueueObj.Usable (x : QueueObj abi) : Prop where
  mutexInit : x.mutexInit = true
  condInit : x.condInit = true
  mutexGone : x.mutexGone = false
  condGone : x.condGone = false
  freed : x.freed = false

namespace QueueObj

variable {x y z : QueueObj abi}

theorem Usable.mutexReady (h : x.Usable) : x.mutexReady = true := mutexReady_iff.mpr ⟨h.mutexInit, h.mutexGone⟩

theorem Usable.condReady (h : x.Usable) : x.condReady = true := condReady_iff.mpr ⟨h.condInit, h.condGone⟩

/-- Nothing was initialized, destroyed or freed between `x` and `y`. -/
structure SameLife (x y : QueueObj abi) : Prop where
  mutexInit : y.mutexInit = x.mutexInit
  condInit : y.condInit = x.condInit
  mutexGone : y.mutexGone = x.mutexGone
  condGone : y.condGone = x.condGone
  freed : y.freed = x.freed

theorem SameLife.refl (x : QueueObj abi) : x.SameLife x := ⟨rfl, rfl, rfl, rfl, rfl⟩

theorem SameLife.trans (h : x.SameLife y) (h' : y.SameLife z) : x.SameLife z :=
  ⟨h'.mutexInit.trans h.mutexInit, h'.condInit.trans h.condInit, h'.mutexGone.trans h.mutexGone,
    h'.condGone.trans h.condGone, h'.freed.trans h.freed⟩

theorem Usable.sameLife (h : x.Usable) (hs : x.SameLife y) : y.Usable :=
  ⟨hs.mutexInit.trans h.mutexInit, hs.condInit.trans h.condInit, hs.mutexGone.trans h.mutexGone,
    hs.condGone.trans h.condGone, hs.freed.trans h.freed⟩

end QueueObj

/-- An update of one queue that does none of this. -/
theorem sameLife_update (s : State abi) {q : ℕ} {x : QueueObj abi} (h : (s.queues q).SameLife x) (p : ℕ) :
    (s.queues p).SameLife (Function.update s.queues q x p) := by
  by_cases hpq : p = q
  · subst hpq
    rwa [Function.update_self]
  · rw [Function.update_of_ne hpq]
    exact .refl _

/-- What holds at the program points under the state lock. -/
def State.Phase (s : State abi) : Call abi → Prop
  | .enableEvtManger (.initMutex q) =>
    s.manger.state = .ready ∧ s.evtQueue = some q ∧ s.procer q = .absent ∧ s.queues q = .zero
  | .enableEvtManger (.initCond q) =>
    s.manger.state = .ready ∧ s.evtQueue = some q ∧ s.procer q = .absent ∧
      (s.queues q).mutexInit = true ∧ (s.queues q).condInit = false ∧ (s.queues q).mutexGone = false ∧
      (s.queues q).condGone = false ∧ (s.queues q).freed = false
  | .enableEvtManger (.create q) =>
    s.manger.state = .ready ∧ s.evtQueue = some q ∧ s.procer q = .absent ∧ (s.queues q).Usable
  | .enableEvtManger .unlock =>
    s.manger.state = .ready ∧ ∃ q, s.evtQueue = some q ∧ s.procer q ≠ .absent ∧ (s.queues q).Usable
  | .disableEvtManger (.join q) =>
    s.manger.state = .running ∧ s.evtQueue = some q ∧ s.procer q ≠ .absent ∧ (s.queues q).Usable ∧
      s.cancelled q = true
  | .disableEvtManger (.destroyCond q) =>
    s.manger.state = .running ∧ s.evtQueue = some q ∧ s.procer q = .ended ∧ (s.queues q).mutexGone = true ∧
      (s.queues q).condGone = false ∧ (s.queues q).freed = false
  | .disableEvtManger (.free q) =>
    s.manger.state = .running ∧ s.evtQueue = some q ∧ s.procer q = .ended ∧ (s.queues q).mutexGone = true ∧
      (s.queues q).condGone = true ∧ (s.queues q).freed = false
  | .disableEvtManger (.clear q) =>
    s.manger.state = .running ∧ s.evtQueue = some q ∧ s.procer q = .ended ∧ (s.queues q).freed = true
  | .disableEvtManger (.unlock q) =>
    s.manger.state = .running ∧ s.evtQueue = none ∧ s.procer q = .ended ∧ (s.queues q).freed = true
  | _ => True

/-- No call is in the middle of enabling or disabling. -/
def State.Settled (s : State abi) : Prop := ∀ t c, s.calls t = some c → c.holdsState = false

theorem StateLock.settled (hX : StateLock s) (hw : s.stateWLock = none) : s.Settled := by
  intro t c hc
  cases hx : c.holdsState with
  | false => rfl
  | true => simp [hX t c hc hx] at hw

/-- Which queues and processors there are, and which queue a post has in hand. -/
structure LiveInv (s : State abi) : Prop where
  life : s.manger.Life
  phase : ∀ t c, s.calls t = some c → s.Phase c
  running : s.Settled → (s.evtQueue ≠ none ↔ s.manger.state = .running)
  usable : s.Settled → ∀ q, s.evtQueue = some q → s.procer q ≠ .absent ∧ (s.queues q).Usable
  current : ∀ q, s.evtQueue = some q → q < s.nextQueue
  live : ∀ q, (s.procer q).alive → s.evtQueue = some q ∧ (s.queues q).Usable
  fresh : ∀ q, s.nextQueue ≤ q → s.procer q = .absent ∧ s.queues q = .zero
  inCb : ∀ p, s.calls (.procer p) ≠ none → (s.procer p).isInCb = true
  locking : ∀ t id arg q, s.calls t = some (.postEvtSRT id arg (.lock (some q))) →
    q < s.nextQueue ∧ ∀ p, t = .procer p → q = p
  signalling : ∀ t id arg q, s.calls t = some (.postEvtSRT id arg (.signal q)) →
    q < s.nextQueue ∧ ∀ p, t = .procer p → q = p

/-- The queue of a callback is in use. -/
theorem LiveInv.ofCb (h : LiveInv s) {p : ℕ} (hc : s.calls (.procer p) ≠ none) :
    s.evtQueue = some p ∧ (s.queues p).Usable :=
  h.live p (ProcerPc.alive_of_isInCb (h.inCb p hc))

/-! ### Steps that leave the queues alone -/

theorem setQueue_sameLife (s : State abi) (q p : ℕ) (x : EvtQueue abi) :
    (s.queues p).SameLife ((s.setQueue q x).queues p) :=
  sameLife_update s (x := { s.queues q with queue := x }) ⟨rfl, rfl, rfl, rfl, rfl⟩ p

theorem setQueue_mutex (s : State abi) (q p : ℕ) (x : EvtQueue abi) :
    ((s.setQueue q x).queues p).mutex = (s.queues p).mutex := by
  by_cases hpq : p = q
  · subst hpq
    simp
  · simp [Function.update_of_ne hpq]

theorem writeBack_sameLife (s : State abi) (place : Option (ℕ × ℕ)) (d : EvtDesc abi) (p : ℕ) :
    (s.queues p).SameLife ((s.writeBack place d).queues p) := by
  cases place with
  | none => exact .refl _
  | some x => exact setQueue_sameLife ..

theorem writeBack_mutex (s : State abi) (place : Option (ℕ × ℕ)) (d : EvtDesc abi) (p : ℕ) :
    ((s.writeBack place d).queues p).mutex = (s.queues p).mutex := by
  cases place with
  | none => rfl
  | some x => exact setQueue_mutex ..

/-- A descriptor that lies in a queue is the one the thread's own callback was handed. -/
theorem argDesc_place {arg : PostArg abi} {d : EvtDesc abi} {p slot : ℕ}
    (hd : s.argDesc t arg = some (d, some (p, slot))) : t = .procer p ∧ ∃ k pc, s.procer p = .dispatch slot k pc := by
  unfold State.argDesc at hd
  split at hd
  · simp at hd
  · rename_i p'
    split at hd
    · rename_i slot' k pc hp
      split at hd
      · simp at hd
      · simp only [Option.some.injEq, Prod.mk.injEq] at hd
        obtain ⟨-, rfl, rfl⟩ := hd
        exact ⟨rfl, k, pc, hp⟩
    · simp at hd
  · simp at hd

/-- A step that does not belong to enabling or disabling. -/
structure Ordinary (s s' : State abi) : Prop where
  life : s'.manger.Life
  ready : s.manger.state = .ready → s'.manger.state = .ready
  running : s'.manger.state = .running ↔ s.manger.state = .running
  queue : s'.evtQueue = s.evtQueue
  nextQueue : s'.nextQueue = s.nextQueue
  cancelled : s'.cancelled = s.cancelled
  sameLife : ∀ q, (s.queues q).SameLife (s'.queues q)
  /-- Nobody writes to a queue before it is initialized. -/
  zero : ∀ q, (s.queues q).mutexInit = false → s'.queues q = s.queues q
  procer : ∀ q, s'.procer q = s.procer q ∨ (s.procer q).alive ∧ s'.procer q ≠ .absent
  held : ∀ t c, s'.calls t = some c → c.holdsState = true → s.calls t = some c
  kept : ∀ t c, s.calls t = some c → c.holdsState = true → s'.calls t = some c ∨ ∃ p, c = .disableEvtManger (.join p)

/-- A step of a living processor. -/
theorem procer_update {q : ℕ} {pc : ProcerPc} (ha : (s.procer q).alive) (hpc : pc ≠ .absent) (p : ℕ) :
    Function.update s.procer q pc p = s.procer p ∨
      (s.procer p).alive ∧ Function.update s.procer q pc p ≠ .absent := by
  by_cases hpq : p = q
  · subst hpq
    exact .inr ⟨ha, by simpa using hpc⟩
  · exact .inl (Function.update_of_ne hpq _ _)

/-- A step in which a call that does not hold the state lock goes on or returns. -/
theorem held_update {x : Option (Call abi)} (hx : ∀ c, x = some c → c.holdsState = false)
    (ht : ∀ c, s.calls t = some c → c.holdsState = false) :
    (∀ u c, Function.update s.calls t x u = some c → c.holdsState = true → s.calls u = some c) ∧
      (∀ u c, s.calls u = some c → c.holdsState = true →
        Function.update s.calls t x u = some c ∨ ∃ p, c = .disableEvtManger (.join p)) := by
  refine ⟨fun u c hu hc => ?_, fun u c hu hc => .inl ?_⟩
  · by_cases hut : u = t
    · subst hut
      rw [Function.update_self] at hu
      simp [hx c hu] at hc
    · rwa [Function.update_of_ne hut] at hu
  · by_cases hut : u = t
    · subst hut
      simp [ht c hu] at hc
    · rwa [Function.update_of_ne hut]

/-- A step of the processor that leaves the queues alone. -/
theorem Ordinary.ofProcer (hL : LiveInv s) {q : ℕ} {pc : ProcerPc} (ha : (s.procer q).alive) (hpc : pc ≠ .absent)
    {s' : State abi} (hm : s'.manger = s.manger) (hn : s'.nextQueue = s.nextQueue) (hx : s'.cancelled = s.cancelled)
    (hq : s'.queues = s.queues) (hp : s'.procer = Function.update s.procer q pc) (hc : s'.calls = s.calls) :
    Ordinary s s' where
  life := hm ▸ hL.life
  ready := by simp [hm]
  running := by rw [hm]
  queue := by rw [State.evtQueue, hm]; rfl
  nextQueue := hn
  cancelled := hx
  sameLife p := by rw [hq]; exact .refl _
  zero p _ := by rw [hq]
  procer p := hp ▸ procer_update ha hpc p
  held u c hu _ := hc ▸ hu
  kept u c hu _ := .inl (hc ▸ hu)

theorem TableStep.ordinary (hL : LiveInv s) (hX : StateLock s) {c : Call abi} {m : Manger abi} {n : ℕ}
    {c' : Option (Call abi)} {os : List (Obs abi)} (hc : s.calls t = some c) (h : TableStep s t env c m n c' os) :
    Ordinary s (s.tableStep t m n c' os) := by
  obtain ⟨hheld, hkept⟩ := held_update (s := s) (t := t) h.rest.1 fun x hx =>
    Option.some.inj (hc.symm.trans hx) ▸ h.holdsState
  obtain ⟨hm, hq, hs, hr⟩ : m.Life ∧ m.evtQueue = s.manger.evtQueue ∧ (s.manger.state = .ready → m.state = .ready) ∧
      (m.state = .running ↔ s.manger.state = .running) := by
    rcases h.cases with hsame | ⟨args, r, -, -, hi⟩ | ⟨hw, hs, hnone, -⟩
    · exact ⟨hL.life.sameShape hsame, by rw [Manger.evtQueue, hsame.evtQueueProcer], by rw [hsame.state]; exact id,
        by rw [hsame.state]⟩
    · exact hL.life.initStep hi
    · exact absurd hnone ((hL.running (hX.settled hw)).mpr hs)
  exact ⟨hm, hs, hr, hq, rfl, rfl, fun _ => .refl _, fun _ _ => rfl, fun _ => .inl rfl, hheld, hkept⟩

theorem post_ordinary (hL : LiveInv s) {id : EvtOperID abi} {arg : PostArg abi} {q : ℕ} {d : EvtDesc abi}
    {place : Option (ℕ × ℕ)} {x : EvtQueue abi} {d' : EvtDesc abi} {os : Obs abi}
    (hc : s.calls t = some (.postEvtSRT id arg (.lock (some q)))) (hi : (s.queues q).mutexInit = true)
    (hd : s.argDesc t arg = some (d, place)) :
    Ordinary s ((((s.setQueue q x).writeBack place d').setCall t (some (.postEvtSRT id arg (.signal q)))).obs os) := by
  obtain ⟨hheld, hkept⟩ := held_update (s := s) (t := t) (x := some (.postEvtSRT id arg (.signal q)))
    (fun c h => Option.some.inj h ▸ rfl) fun c h => Option.some.inj (hc.symm.trans h) ▸ rfl
  refine ⟨by simpa using hL.life, by simp, by simp, by simp [State.evtQueue], by simp, by simp,
    fun p => (setQueue_sameLife ..).trans (writeBack_sameLife ..), fun p hp => ?_, fun p => .inl (by simp),
    fun u c => by simpa using hheld u c, fun u c => by simpa using hkept u c⟩
  have hpq : p ≠ q := fun h => by simp [← h, hp] at hi
  cases place with
  | none => simp [State.writeBack, Function.update_of_ne hpq]
  | some y =>
    obtain ⟨p', slot⟩ := y
    obtain ⟨-, k, pc, hdisp⟩ := argDesc_place hd
    have hinit := (hL.live p' (by simp [hdisp, ProcerPc.alive])).2.mutexInit
    have hpp : p ≠ p' := fun h => by simp [← h, hp] at hinit
    simp [State.writeBack, Function.update_of_ne hpq, Function.update_of_ne hpp]

theorem Trans.ordinary (hL : LiveInv s) (hX : StateLock s) (h : Trans s t a s') :
    Ordinary s s' ∨ ∃ env c, a = .run env ∧ s.calls t = some c ∧ LifeStep s t c s' := by
  have hrefl : Ordinary s s := ⟨hL.life, id, .rfl, rfl, rfl, rfl, fun _ => .refl _, fun _ _ => rfl,
    fun _ => .inl rfl, fun _ _ h _ => h, fun _ _ h _ => .inl h⟩
  cases h with
  | life ha hc hl => exact .inr ⟨_, _, ha, hc, hl⟩
  | @call api ha hc =>
    obtain ⟨hheld, hkept⟩ := held_update (s := s) (t := t) (x := some api.toCall)
      (fun c h => Option.some.inj h ▸ api.toCall_ne.1) (by simp [hc])
    exact .inl { hrefl with held := hheld, kept := hkept }
  | table ha hc htab => exact .inl (htab.ordinary hL hX hc)
  | @cancelJoin q p ha ht hc hx =>
    subst ht
    have ha : (s.procer q).alive := ProcerPc.alive_of_isInCb (hL.inCb q (by simp [hc]))
    have hup := fun p => procer_update ha (show ProcerPc.ended ≠ .absent by simp) p
    refine .inl { hrefl with procer := hup, held := fun u c hu hcc => ?_, kept := fun u c hu hcc => ?_ }
    · by_cases hut : u = .procer q
      · simp [hut] at hu
      · simpa [Function.update_of_ne hut] using hu
    · by_cases hut : u = .procer q
      · subst hut
        exact .inr ⟨p, Option.some.inj (hu.symm.trans hc)⟩
      · exact .inl (by simpa [Function.update_of_ne hut] using hu)
  | post ha hc hl hi hm hfull hd => exact .inl (post_ordinary hL hc (QueueObj.mutexReady_iff.mp hi).1 hd)
  | @signal _ id arg q ha hc hl hi =>
    obtain ⟨hheld, hkept⟩ := held_update (s := s) (t := t) (x := none) (by simp) fun c h =>
      Option.some.inj (hc.symm.trans h) ▸ rfl
    refine .inl ⟨by simpa using hL.life, by simp, by simp, by simp [State.evtQueue], by simp, by simp,
      fun p => by simp [QueueObj.SameLife.refl], fun p _ => by simp, fun p => ?_, fun u c => by simpa using hheld u c,
      fun u c => by simpa using hkept u c⟩
    simp only [State.ret, State.setCall, State.obs, State.condSignal]
    split
    · rename_i hw
      exact procer_update (by simp [hw, ProcerPc.alive]) (by simp) p
    · exact .inl rfl
  | wait ht hc hp =>
    exact .inl (.ofProcer hL (by rcases hp with hp | hp <;> simp [hp, ProcerPc.alive]) (by simp) rfl rfl rfl rfl rfl rfl)
  | @take q ht hc hp hl hm hn =>
    have ha : (s.procer q).alive := by rcases hp with hp | hp <;> simp [hp, ProcerPc.alive]
    refine .inl { hrefl with
      procer := procer_update ha (by simp), sameLife := fun p => setQueue_sameLife .., zero := fun p hp => ?_ }
    have hpq : p ≠ q := fun h => by simpa [h ▸ hp] using (hL.live q ha).2.mutexInit
    simp [Function.update_of_ne hpq]
  | @cancelWait q ha ht hc hp =>
    have ha : (s.procer q).alive := by rcases hp with hp | hp <;> simp [hp, ProcerPc.alive]
    refine .inl { hrefl with
      procer := procer_update ha (by simp), sameLife := sameLife_update s ⟨rfl, rfl, rfl, rfl, rfl⟩,
      zero := fun p hp => ?_ }
    have hpq : p ≠ q := fun h => by simpa [h ▸ hp] using (hL.live q ha).2.mutexInit
    simp [Function.update_of_ne hpq]
  | wake ht hc hp | noTable ht hc hp | rdlock ht hc hp | endDispatch ht hc hp | move ht hc hp | callSuber ht hc hp
  | compare ht hc hp | cancelCb ha ht hc hp =>
    exact .inl (.ofProcer hL (by rw [hp]; simp [ProcerPc.alive]) (by simp) rfl rfl rfl rfl rfl rfl)
  | cbRead | halt => exact .inl { hrefl with }

/-! ### The invariant -/

theorem State.Phase.of_not_holds {c : Call abi} (hc : c.holdsState = false) : s.Phase c := by
  unfold Call.holdsState at hc
  split at hc
  · trivial
  · trivial
  · simp at hc
  · simp at hc
  · unfold State.Phase
    split <;> simp_all

namespace Ordinary

variable (ho : Ordinary s s')

include ho

theorem usable {q : ℕ} (h : (s.queues q).Usable) : (s'.queues q).Usable := h.sameLife (ho.sameLife q)

theorem absent {q : ℕ} (h : s.procer q = .absent) : s'.procer q = .absent := by
  rcases ho.procer q with he | ⟨ha, -⟩
  · exact he.trans h
  · exact absurd h ha.1

theorem not_absent {q : ℕ} (h : s.procer q ≠ .absent) : s'.procer q ≠ .absent := by
  rcases ho.procer q with he | ⟨-, hne⟩
  · exact he ▸ h
  · exact hne

theorem ended {q : ℕ} (h : s.procer q = .ended) : s'.procer q = .ended := by
  rcases ho.procer q with he | ⟨ha, -⟩
  · exact he.trans h
  · exact absurd h ha.2

/-- What holds at a program point under the state lock goes on to hold. -/
theorem phase {c : Call abi} (h : s.Phase c) : s'.Phase c := by
  unfold State.Phase at h ⊢
  split
  · obtain ⟨hs, hq, hp, hz⟩ := h
    refine ⟨ho.ready hs, ho.queue.trans hq, ho.absent hp, (ho.zero _ ?_).trans hz⟩
    rw [hz]
    rfl
  · obtain ⟨hs, hq, hp, h1, h2, h3, h4, h5⟩ := h
    have hl := fun q => ho.sameLife q
    exact ⟨ho.ready hs, ho.queue.trans hq, ho.absent hp, (hl _).mutexInit.trans h1, (hl _).condInit.trans h2,
      (hl _).mutexGone.trans h3, (hl _).condGone.trans h4, (hl _).freed.trans h5⟩
  · obtain ⟨hs, hq, hp, hu⟩ := h
    exact ⟨ho.ready hs, ho.queue.trans hq, ho.absent hp, ho.usable hu⟩
  · obtain ⟨hs, q, hq, hp, hu⟩ := h
    exact ⟨ho.ready hs, q, ho.queue.trans hq, ho.not_absent hp, ho.usable hu⟩
  · obtain ⟨hs, hq, hp, hu, hx⟩ := h
    exact ⟨ho.running.mpr hs, ho.queue.trans hq, ho.not_absent hp, ho.usable hu, by rw [ho.cancelled, hx]⟩
  · obtain ⟨hs, hq, hp, h1, h2, h3⟩ := h
    have hl := fun q => ho.sameLife q
    exact ⟨ho.running.mpr hs, ho.queue.trans hq, ho.ended hp, (hl _).mutexGone.trans h1, (hl _).condGone.trans h2,
      (hl _).freed.trans h3⟩
  · obtain ⟨hs, hq, hp, h1, h2, h3⟩ := h
    have hl := fun q => ho.sameLife q
    exact ⟨ho.running.mpr hs, ho.queue.trans hq, ho.ended hp, (hl _).mutexGone.trans h1, (hl _).condGone.trans h2,
      (hl _).freed.trans h3⟩
  · obtain ⟨hs, hq, hp, hf⟩ := h
    exact ⟨ho.running.mpr hs, ho.queue.trans hq, ho.ended hp, (ho.sameLife _).freed.trans hf⟩
  · obtain ⟨hs, hq, hp, hf⟩ := h
    exact ⟨ho.running.mpr hs, ho.queue.trans hq, ho.ended hp, (ho.sameLife _).freed.trans hf⟩
  · trivial

/-- What holds while nothing is enabled or disabled goes on to hold, also when a join is cancelled. -/
theorem settled (hL : LiveInv s) (hs' : s'.Settled) :
    (s'.evtQueue ≠ none ↔ s'.manger.state = .running) ∧
      ∀ q, s'.evtQueue = some q → s'.procer q ≠ .absent ∧ (s'.queues q).Usable := by
  rw [ho.queue, ho.running]
  by_cases hs : s.Settled
  · refine ⟨hL.running hs, fun q hq => ?_⟩
    obtain ⟨hp, hu⟩ := hL.usable hs q hq
    exact ⟨ho.not_absent hp, ho.usable hu⟩
  · simp only [State.Settled, not_forall, Bool.not_eq_false] at hs
    obtain ⟨t, c, hc, hx⟩ := hs
    rcases ho.kept t c hc hx with hc' | ⟨p, rfl⟩
    · simp [hs' t c hc'] at hx
    · obtain ⟨hrun, hq, hp, hu, -⟩ := hL.phase t _ hc
      refine ⟨by simp [hq, hrun], fun q hq' => ?_⟩
      obtain rfl := Option.some.inj (hq.symm.trans hq')
      exact ⟨ho.not_absent hp, ho.usable hu⟩

end Ordinary
theorem LifeStep.nextQueue_le {c : Call abi} (h : LifeStep s t c s') : s.nextQueue ≤ s'.nextQueue := by
  cases h <;> simp

theorem Trans.nextQueue_le (h : Trans s t a s') : s.nextQueue ≤ s'.nextQueue := by
  cases h with
  | life ha hc hl => exact hl.nextQueue_le
  | _ => simp [State.endDispatch]

/-- A step that sets up or stops a queue leaves the tables of the manager alone. -/
theorem LifeStep.tables {c : Call abi} (h : LifeStep s t c s') :
    s'.manger = { s.manger with state := s'.manger.state, evtQueueProcer := s'.manger.evtQueueProcer } := by
  cases h <;> rfl

/-- It logs a return at most. -/
theorem LifeStep.log_eq {c : Call abi} (h : LifeStep s t c s') :
    s'.log = s.log ∨ ∃ r, s'.log = s.log ++ [.ret t r] := by
  cases h with
  | enabled | disabled => exact .inr ⟨_, rfl⟩
  | _ => exact .inl rfl

/-- So it adds nothing to any part of the log that has no returns. -/
theorem LifeStep.log_keeps {α : Type*} {c : Call abi} (h : LifeStep s t c s') {f : List (Obs abi) → List α}
    (hr : ∀ t r, f [.ret t r] = []) (happ : ∀ l os, f (l ++ os) = f l ++ f os) : f s'.log = f s.log := by
  rcases h.log_eq with he | ⟨r, he⟩
  · rw [he]
  · rw [he, happ, hr, List.append_nil]

theorem LifeStep.subReaders {c : Call abi} (h : LifeStep s t c s') : s'.subReaders = s.subReaders := by
  cases h <;> rfl

theorem LifeStep.entry_eq {c : Call abi} (h : LifeStep s t c s') : s'.entry = s.entry := by
  cases h <;> rfl

/-- The only processor it moves is the new one. -/
theorem LifeStep.procer_cases {c : Call abi} (h : LifeStep s t c s') (p : ℕ) :
    s'.procer p = s.procer p ∨ c = .enableEvtManger (.create p) ∧ s'.procer p = .top := by
  cases h with
  | @create q =>
    by_cases hpq : p = q
    · subst hpq
      exact .inr ⟨rfl, by simp⟩
    · exact .inl (by simp [Function.update_of_ne hpq])
  | _ => exact .inl rfl

/-- A step that sets up or stops a queue moves no running processor. -/
theorem LifeStep.procer_eq {c : Call abi} (hL : LiveInv s) (h : LifeStep s t c s') (hc : s.calls t = some c) {p : ℕ}
    (hp : s.procer p ≠ .absent) : s'.procer p = s.procer p := by
  rcases h.procer_cases p with he | ⟨rfl, -⟩
  · exact he
  · exact absurd (hL.phase t _ hc).2.2.1 hp

/-- A processor that does not wait is moved by its own steps only. -/
theorem Trans.procer_ne {p : ℕ} (hL : LiveInv s) (h : Trans s t a s') (hp : t ≠ .procer p) (ha : s.procer p ≠ .absent)
    (hw : s.procer p ≠ .waiting) : s'.procer p = s.procer p := by
  cases h with
  | life ha' hc hl => exact hl.procer_eq hL hc ha
  | @signal _ _ _ q ha' hc hl =>
    simp only [State.ret, State.setCall, State.obs, State.condSignal]
    split
    · rename_i hwait
      have hpq : p ≠ q := fun h => hw (h ▸ hwait)
      simp [Function.update_of_ne hpq]
    · rfl
  | post => simp
  | call | table | cbRead | halt => rfl
  | cancelJoin ha' ht | wait ht | take ht | wake ht | cancelWait ha' ht | noTable ht | rdlock ht | endDispatch ht
  | move ht | compare ht | callSuber ht | cancelCb ha' ht =>
    have hpq : p ≠ _ := fun h => hp (h ▸ ht)
    simp [State.endDispatch, Function.update_of_ne hpq]

/-- A callback keeps running while its thread does not step. -/
theorem Trans.inCb_ne {p : ℕ} (hL : LiveInv s) (h : Trans s t a s') (hp : t ≠ .procer p)
    (hcb : (s.procer p).isInCb = true) : s'.procer p = s.procer p :=
  h.procer_ne hL hp (ProcerPc.alive_of_isInCb hcb).1 fun hw => by simp [hw, ProcerPc.isInCb] at hcb

theorem inCb_trans (hL : LiveInv s) (h : Trans s t a s') (p : ℕ)
    (hc : s'.calls (.procer p) ≠ none) : (s'.procer p).isInCb = true := by
  by_cases hp : t = .procer p
  · subst hp
    cases h with
    | call ha hc' hu => exact hu
    | table ha hc' => exact hL.inCb p (by simp [hc'])
    | life ha hc' hl =>
      have hcb := hL.inCb p (by simp [hc'])
      rw [hl.procer_eq hL hc' (ProcerPc.alive_of_isInCb hcb).1]
      exact hcb
    | cancelJoin => simp at hc
    | post ha hc' => simpa using hL.inCb p (by simp [hc'])
    | signal => simp at hc
    | wait ht hc' | take ht hc' | wake ht hc' | cancelWait ha ht hc' | noTable ht hc' | rdlock ht hc'
    | endDispatch ht hc' | move ht hc' | compare ht hc' | callSuber ht hc' | cbRead ht hc' | cancelCb ha ht hc' =>
      exact absurd hc' hc
    | halt => exact hL.inCb p hc
  · rw [h.calls_ne (Ne.symm hp)] at hc
    have hcb := hL.inCb p hc
    rw [h.inCb_ne hL hp hcb]
    exact hcb

/-- A post has in hand the queue that was current, which for a callback is its own. -/
theorem pointer_trans (hL : LiveInv s) (h : Trans s t a s') {u : Thread} {id : EvtOperID abi} {arg : PostArg abi}
    {q : ℕ} {pc : PostPc} (hpc : pc = .lock (some q) ∨ pc = .signal q)
    (hc : s'.calls u = some (.postEvtSRT id arg pc)) : q < s'.nextQueue ∧ ∀ p, u = .procer p → q = p := by
  have hn := h.nextQueue_le
  have hold : s.calls u = some (.postEvtSRT id arg pc) → q < s'.nextQueue ∧ ∀ p, u = .procer p → q = p := by
    intro hc
    rcases hpc with rfl | rfl
    · exact (hL.locking _ _ _ _ hc).imp_left (lt_of_lt_of_le · hn)
    · exact (hL.signalling _ _ _ _ hc).imp_left (lt_of_lt_of_le · hn)
  by_cases hut : u = t
  · subst hut
    cases h with
    | @call api =>
      simp only [State.setCall, Function.update_self, Option.some.injEq] at hc
      rcases hpc with rfl | rfl
      · exact (api.toCall_ne.2.2 _ _ _ hc).elim
      · exact (api.toCall_ne.2.1 _ _ _ hc).elim
    | table ha hc' htab =>
      simp only [State.tableStep, Function.update_self] at hc
      rcases hpc with rfl | rfl
      · have hq := (htab.rest.2.2 _ _ _ hc).symm
        refine ⟨lt_of_lt_of_le (hL.current q hq) hn, fun p hp => ?_⟩
        subst hp
        exact Option.some.inj (hq.symm.trans (hL.ofCb (p := p) (by simp [hc'])).1)
      · exact (htab.rest.2.1 _ _ _ hc).elim
    | post ha hc' =>
      simp only [State.obs, State.setCall, Function.update_self, Option.some.injEq, Call.postEvtSRT.injEq] at hc
      obtain ⟨-, -, rfl⟩ := hc
      rcases hpc with hpc | hpc
      · simp at hpc
      · rw [PostPc.signal.injEq] at hpc
        subst hpc
        exact (hL.locking _ _ _ _ hc').imp_left (lt_of_lt_of_le · hn)
    | life ha hc' hl => cases hl <;> simp at hc
    | cancelJoin | signal => simp at hc
    | _ => exact hold hc
  · rw [h.calls_ne hut] at hc
    exact hold hc

/-- The fields about queues and processors. -/
theorem liveInv_of (h : Trans s t a s') (hL : LiveInv s) (hm : s'.manger.Life)
    (hphase : ∀ u c, s'.calls u = some c → s'.Phase c)
    (hset : s'.Settled → (s'.evtQueue ≠ none ↔ s'.manger.state = .running) ∧
      ∀ q, s'.evtQueue = some q → s'.procer q ≠ .absent ∧ (s'.queues q).Usable)
    (hcur : ∀ q, s'.evtQueue = some q → q < s'.nextQueue)
    (hlive : ∀ q, (s'.procer q).alive → s'.evtQueue = some q ∧ (s'.queues q).Usable)
    (hfresh : ∀ q, s'.nextQueue ≤ q → s'.procer q = .absent ∧ s'.queues q = .zero) : LiveInv s' where
  life := hm
  phase := hphase
  running hs := (hset hs).1
  usable hs := (hset hs).2
  current := hcur
  live := hlive
  fresh := hfresh
  inCb := inCb_trans hL h
  locking _ _ _ _ hc := pointer_trans hL h (.inl rfl) hc
  signalling _ _ _ _ hc := pointer_trans hL h (.inr rfl) hc

theorem Ordinary.liveInv (ho : Ordinary s s') (hL : LiveInv s) (h : Trans s t a s') : LiveInv s' := by
  refine liveInv_of h hL ho.life (fun u c hc => ?_) (ho.settled hL) (fun q hq => ?_) (fun q hq => ?_) fun q hq => ?_
  · cases hx : c.holdsState with
    | false => exact .of_not_holds hx
    | true => exact ho.phase (hL.phase u c (ho.held u c hc hx))
  · exact ho.nextQueue ▸ hL.current q (ho.queue ▸ hq)
  · have ha : (s.procer q).alive := by
      rcases ho.procer q with he | ⟨ha, -⟩
      · exact he ▸ hq
      · exact ha
    obtain ⟨hcur, hu⟩ := hL.live q ha
    exact ⟨ho.queue.trans hcur, ho.usable hu⟩
  · obtain ⟨hp, hz⟩ := hL.fresh q (ho.nextQueue ▸ hq)
    exact ⟨ho.absent hp, (ho.zero q (by rw [hz]; rfl)).trans hz⟩

/-- The only call under the state lock is the stepping thread's. -/
theorem LifeStep.phase {c : Call abi} (hX : StateLock s) (hc : s.calls t = some c)
    (h : Trans s t a s') (hl : LifeStep s t c s') (hp : ∀ x, s'.calls t = some x → s'.Phase x) (u : Thread)
    (x : Call abi) (hu : s'.calls u = some x) : s'.Phase x := by
  by_cases hut : u = t
  · exact hp x (hut ▸ hu)
  · cases hx : x.holdsState with
    | false => exact .of_not_holds hx
    | true =>
      have hlock := hX u x (h.calls_ne hut ▸ hu) hx
      rcases (hl.lock hX hc).1 with hw | hw <;> simp [hlock, hut] at hw

/-- A step under the lock that changes only the object of the current queue, whose processor does not run. -/
theorem LifeStep.liveInv_object {c c' : Call abi} {q : ℕ} {x : QueueObj abi} (hL : LiveInv s) (hX : StateLock s)
    (hc : s.calls t = some c) (hq : s.evtQueue = some q) (hp : ¬ (s.procer q).alive) (hc' : c'.holdsState = true)
    (h : Trans s t a ({ s with queues := Function.update s.queues q x }.setCall t (some c')))
    (hl : LifeStep s t c ({ s with queues := Function.update s.queues q x }.setCall t (some c')))
    (hphase : State.Phase ({ s with queues := Function.update s.queues q x }.setCall t (some c')) c') :
    LiveInv ({ s with queues := Function.update s.queues q x }.setCall t (some c')) := by
  refine liveInv_of h hL hL.life (hl.phase hX hc h fun y hy => ?_) (fun hset => ?_) hL.current (fun p ha => ?_)
    fun p hge => ?_
  · simp only [State.setCall, Function.update_self, Option.some.injEq] at hy
    exact hy ▸ hphase
  · simp [hset t c' (Function.update_self ..)] at hc'
  · obtain rfl := Option.some.inj (hq.symm.trans (hL.live p ha).1)
    exact absurd ha hp
  · -- nothing is written to a queue that does not exist yet
    have hlt := hL.current q hq
    have hge : s.nextQueue ≤ p := hge
    have hpq : p ≠ q := by omega
    simpa [Function.update_of_ne hpq] using hL.fresh p hge

theorem LifeStep.liveInv {c : Call abi} (hL : LiveInv s) (hX : StateLock s) (hc : s.calls t = some c)
    (h : Trans s t a s') (hl : LifeStep s t c s') : LiveInv s' := by
  have hphase := hl.phase hX hc h
  have hP := hL.phase t c hc
  -- a call that goes on under the lock is not settled
  have hunset : ∀ x, s'.calls t = some x → x.holdsState = true → ¬ s'.Settled := fun x hx hh hs =>
    by simp [hs t x hx] at hh
  cases hl with
  | @enable tab idx hw hs hq hf =>
    obtain ⟨rfl, h0⟩ := hL.life.firstFree hf
    have hnone : s.evtQueue = none := by simp [State.evtQueue, hq, h0]
    refine liveInv_of h hL ⟨hL.life.queueNum, hL.life.depth, fun hu => by simp [hs] at hu⟩ (hphase fun x hx => ?_)
      (fun hset => absurd hset (hunset _ (Function.update_self ..) rfl)) (fun q hcur => ?_) (fun q ha => ?_) fun q hge => ?_
    · simp only [State.setCall, Function.update_self, Option.some.injEq] at hx
      subst hx
      exact ⟨hs, by simp [State.evtQueue, Table.set], (hL.fresh _ le_rfl).1, by simp⟩
    · have hq : s.nextQueue = q := by simpa [State.evtQueue, Table.set] using hcur
      simp [← hq]
    · simp [(hL.live q ha).1] at hnone
    · have hge : s.nextQueue + 1 ≤ q := hge
      have hne : q ≠ s.nextQueue := by omega
      simpa [Function.update_of_ne hne] using hL.fresh q (by omega)
  | @initMutex q =>
    obtain ⟨hs, hq, hab, hz⟩ := hP
    exact liveInv_object hL hX hc hq (by simp [hab, ProcerPc.alive]) rfl h .initMutex
      ⟨hs, hq, hab, by simp [hz, QueueObj.zero]⟩
  | @initCond q =>
    obtain ⟨hs, hq, hab, h1, -, h3, h4, h5⟩ := hP
    exact liveInv_object hL hX hc hq (by simp [hab, ProcerPc.alive]) rfl h .initCond
      ⟨hs, hq, hab, by simp [h1], by simp, by simp [h3], by simp [h4], by simp [h5]⟩
  | @create q =>
    obtain ⟨hs, hq, hab, hu⟩ := hP
    refine liveInv_of h hL hL.life (hphase fun x hx => ?_) (fun hset => absurd hset (hunset _ (Function.update_self ..) rfl))
      hL.current (fun p ha => ?_) fun p hge => ?_
    · simp only [State.setCall, Function.update_self, Option.some.injEq] at hx
      subst hx
      exact ⟨hs, q, hq, by simp, hu⟩
    · by_cases hpq : p = q
      · subst hpq
        exact ⟨hq, hu⟩
      · exact hL.live p (by simpa [Function.update_of_ne hpq] using ha)
    · have hlt := hL.current q hq
      have hpq : p ≠ q := fun h => by simp [h] at hge; omega
      simpa [Function.update_of_ne hpq] using hL.fresh p hge
  | enabled =>
    obtain ⟨hs, q, hq, hp, hu⟩ := hP
    refine liveInv_of h hL ⟨hL.life.queueNum, hL.life.depth, fun hu => by simp at hu⟩
      (hphase fun x hx => by simp at hx) (fun _ => ⟨?_, fun p hp' => ?_⟩) hL.current hL.live hL.fresh
    · have hq' : s.manger.evtQueue = some q := hq
      simp [State.evtQueue, hq']
    · obtain rfl := Option.some.inj (hq.symm.trans hp')
      exact ⟨hp, hu⟩
  | @disable q hw hs hq =>
    obtain ⟨hp, hu⟩ := hL.usable (hX.settled hw) q hq
    refine liveInv_of h hL hL.life (hphase fun x hx => ?_) (fun hset => absurd hset (hunset _ (Function.update_self ..) rfl))
      hL.current hL.live hL.fresh
    simp only [State.setCall, Function.update_self, Option.some.injEq] at hx
    subst hx
    exact ⟨hs, hq, hp, hu, by simp⟩
  | @destroyMutex q he =>
    obtain ⟨hs, hq, -, hu, -⟩ := hP
    exact liveInv_object hL hX hc hq (by simp [he, ProcerPc.alive]) rfl h (.destroyMutex he)
      ⟨hs, hq, he, by simp, by simp [hu.condGone], by simp [hu.freed]⟩
  | @destroyCond q =>
    obtain ⟨hs, hq, he, h1, -, h3⟩ := hP
    exact liveInv_object hL hX hc hq (by simp [he, ProcerPc.alive]) rfl h .destroyCond
      ⟨hs, hq, he, by simp [h1], by simp, by simp [h3]⟩
  | @free q =>
    obtain ⟨hs, hq, he, -⟩ := hP
    exact liveInv_object hL hX hc hq (by simp [he, ProcerPc.alive]) rfl h .free ⟨hs, hq, he, by simp⟩
  | @clear q =>
    obtain ⟨hs, hq, he, hf⟩ := hP
    obtain ⟨tab, htab, -⟩ := Option.bind_eq_some_iff.mp hq
    have hnone : s.clearQueue.evtQueue = none := by simp [State.evtQueue, htab, Table.set]
    refine liveInv_of h hL ⟨hL.life.queueNum, hL.life.depth, fun hu => by simp [hs] at hu⟩ (hphase fun x hx => ?_)
      (fun hset => absurd hset (hunset _ (Function.update_self ..) rfl)) (fun p hp => ?_) (fun p ha => ?_) hL.fresh
    · simp only [State.setCall, Function.update_self, Option.some.injEq] at hx
      subst hx
      exact ⟨hs, hnone, he, hf⟩
    · exact absurd (hnone.symm.trans hp) (by simp)
    · obtain rfl := Option.some.inj (hq.symm.trans (hL.live p ha).1)
      exact absurd he ha.2
  | @disabled q =>
    obtain ⟨hs, hq, -⟩ := hP
    have hq' : s.manger.evtQueue = none := hq
    refine liveInv_of h hL ⟨hL.life.queueNum, hL.life.depth, fun hu => by simp at hu⟩
      (hphase fun x hx => by simp at hx) (fun _ => ⟨?_, fun p hp' => ?_⟩) hL.current hL.live hL.fresh
    · simp [State.evtQueue, hq']
    · exact absurd (hq.symm.trans hp') (by simp)

theorem liveInv_trans (hL : LiveInv s) (hX : StateLock s) (h : Trans s t a s') : LiveInv s' := by
  rcases h.ordinary hL hX with ho | ⟨env, c, -, hc, hl⟩
  · exact ho.liveInv hL h
  · exact hl.liveInv hL hX hc h

theorem liveInv_reach (h : Reach ok clients s) : LiveInv s := by
  refine h.induction ⟨.init, ?_, ?_, ?_, ?_, ?_, ?_, ?_, ?_, ?_⟩
    fun _ _ _ _ hr hL _ _ h => liveInv_trans hL (stateLock_reach hr) h
  all_goals simp [State.init, State.evtQueue, Manger.init, ProcerPc.alive]

/-- A processor that ended stays so. -/
theorem Trans.ended (hL : LiveInv s) (hX : StateLock s) (h : Trans s t a s') {q : ℕ} (he : s.procer q = .ended) :
    s'.procer q = .ended := by
  rcases h.ordinary hL hX with ho | ⟨env, c, -, hc, hl⟩
  · rcases ho.procer q with hp | ⟨ha, -⟩
    · exact hp.trans he
    · exact absurd he ha.2
  · exact (hl.procer_eq hL hc (by simp [he])).trans he

/-- A queue whose processor is joined. -/
theorem LiveInv.join (hL : LiveInv s) {q : ℕ} (hc : s.calls t = some (.disableEvtManger (.join q))) :
    s.manger.state = .running ∧ s.evtQueue = some q ∧ s.procer q ≠ .absent ∧ (s.queues q).Usable ∧
      s.cancelled q = true :=
  hL.phase t _ hc

/-! ### The threads that may have a call in progress -/

/-- The clients, and the processors there have been. -/
def State.threads (s : State abi) : List Thread :=
  (List.range s.clients).map .client ++ (List.range s.nextQueue).map .procer

theorem Trans.clients_eq (h : Trans s t a s') : s'.clients = s.clients := by
  cases h with
  | life ha hc hl => cases hl <;> simp
  | _ => simp [State.endDispatch]

/-- Only clients and callbacks make calls. -/
theorem client_lt_trans {n : ℕ} (hlt : s.calls (.client n) ≠ none → n < s.clients) (h : Trans s t a s')
    (hc : s'.calls (.client n) ≠ none) : n < s'.clients := by
  rw [h.clients_eq]
  by_cases ht : t = .client n
  · subst ht
    cases h with
    | call ha hc' hu => simpa [State.userCode] using hu
    | table ha hc' | life ha hc' | post ha hc' | signal ha hc' => exact hlt (by simp [hc'])
    | cancelJoin ha ht hc' => simp at ht
    | halt => exact hlt hc
    | wait ht | take ht | wake ht | cancelWait ha ht | noTable ht | rdlock ht | endDispatch ht | move ht | compare ht
    | callSuber ht | cbRead ht | cancelCb ha ht => simp at ht
  · rw [h.calls_ne (Ne.symm ht)] at hc
    exact hlt hc

theorem mem_threads (h : Reach ok clients s) (hc : s.calls t ≠ none) : t ∈ s.threads := by
  cases t with
  | client n =>
    have hlt : s.calls (.client n) ≠ none → n < s.clients :=
      h.induction (P := fun s => s.calls (.client n) ≠ none → n < s.clients) (fun hc => absurd rfl hc)
        fun _ _ _ _ _ hlt _ _ h hc => client_lt_trans hlt h hc
    simp [State.threads, hlt hc]
  | procer q =>
    have hL := liveInv_reach h
    simp [State.threads, hL.current q (hL.ofCb hc).1]

/-- Nobody is in a call if none of these threads is. -/
theorem idle_of_threads (h : Reach ok clients s) (hall : (s.threads.all fun u => (s.calls u).isNone) = true)
    (u : Thread) : s.calls u = none := by
  by_contra hc
  have hnone := List.all_eq_true.mp hall u (mem_threads h hc)
  exact hc (Option.isNone_iff_eq_none.mp hnone)

end PlatIF.Evt
