import PlatIF.Ioc.PostAbort
import PlatIF.Ioc.Watch

/-!
# The drain loop

After each callback the async thread posts the events in its cache again, the oldest first, until the cache is empty or
its own queue is not.  The loop is watched from where it begins, while the context mutex is free whenever a replay tries
it and every matching queue has room.

* `Trans.drainStep` — the steps of the thread in the loop;
* `drainInv_run` — an iteration retires its event exactly if a subscription listed the event when the replay obtained
  the mutex, and each step of an iteration that does comes closer to the end;
* `drain_iff` — the law for every run from the head of the loop;
* `drain_spins` — an event without a subscription stays in the cache, and the loop goes on.
-/

namespace PlatIF.Ioc

variable {abi : Abi} {s s' s₀ : State abi} {t u : Tid} {a : Act abi} {i j g n N : ℕ} {q : CachedPtr abi}
  {f f' : PostFrame abi} {r : TosResult} {maxSuberNum : ULong abi} {clients : ℕ}
  {ok : State abi → Tid × Act abi → Prop}

/-! ### The steps of the thread -/

/-- How many steps a replay has still to take, when each matching queue has room. -/
def PostPc.stepsLeft (n : ℕ) : PostPc → ℕ
  | .lock => 3 * n + 5
  | .loop k | .retry k => 3 * (n - k) + 4
  | .push k | .inCb k => 3 * (n - k) + 3
  | .signal k => 3 * (n - k) + 2

/-- What a step of the thread in the drain loop does. -/
inductive DrainStep (s s' : State abi) (t : Tid) (i g : ℕ) : Prop
  | checked {e : Bool} (hb : s.base t = .async i g .drain) (hb' : s'.base t = .async i g (.drainChk e))
      (hx : (s'.suber i).evtCached = (s.suber i).evtCached)
  | left {e : Bool} (hb : s.base t = .async i g (.drainChk e)) (hb' : s'.base t = .async i g .top)
      (hx : (s'.suber i).evtCached = (s.suber i).evtCached)
  | begun {q : CachedPtr abi} {f : PostFrame abi} (hb : s.base t = .async i g (.drainChk true))
      (hc : 0 < (s.suber i).evtCached.pending) (hb' : s'.base t = .async i g (.replay q))
      (hf' : s'.frames t = [.post f]) (hp : f.pc = .lock) (hx : (s'.suber i).evtCached = (s.suber i).evtCached)
  | locked {q : CachedPtr abi} {f : PostFrame abi} (hb : s.base t = .async i g (.replay q)) (hf : s.frames t = [.post f])
      (hp : f.pc = .lock) (hb' : s'.base t = .async i g (.replay q))
      (hf' : s'.frames t = [.post { f with pc := .loop 0, table := s.ctx.pEvtSubers }])
      (hx : (s'.suber i).evtCached = (s.suber i).evtCached)
  | went {q : CachedPtr abi} {f f' : PostFrame abi} (hb : s.base t = .async i g (.replay q))
      (hf : s.frames t = [.post f]) (hp : f.pc ≠ .lock) (hb' : s'.base t = .async i g (.replay q))
      (hf' : s'.frames t = [.post f']) (hp' : f'.pc ≠ .lock) (hl : f'.lists = f.lists)
      (hv : (∀ v ∈ f.visits, v.2 = .queue true) → ∀ v ∈ f'.visits, v.2 = .queue true)
      (hlt : f'.pc.stepsLeft s.ctx.maxSuberNum.toNat < f.pc.stepsLeft s.ctx.maxSuberNum.toNat)
      (hx : (s'.suber i).evtCached = (s.suber i).evtCached)
  | returned {q : CachedPtr abi} {f : PostFrame abi} {k : ℕ} (hb : s.base t = .async i g (.replay q))
      (hf : s.frames t = [.post f]) (hp : f.pc = .loop k) (hk : ¬ k < s.ctx.maxSuberNum.toNat)
      (hb' : s'.base t = .async i g (.drained q f.value)) (hx : (s'.suber i).evtCached = (s.suber i).evtCached)
  | retired {q : CachedPtr abi} (hb : s.base t = .async i g (.drained q .success)) (hb' : s'.base t = .async i g .drain)
      (hx : (s'.suber i).evtCached = (s.suber i).evtCached.pop)
  | redone {q : CachedPtr abi} {r : TosResult} (hb : s.base t = .async i g (.drained q r)) (hr : r ≠ .success)
      (hb' : s'.base t = .async i g .drain) (hx : (s'.suber i).evtCached = (s.suber i).evtCached)

/-- User code over a replay runs in a callback of the replay. -/
theorem UserStack.of_replay {fs : List (Frame abi)} (h : UserStack (.async i g (.replay q)) fs) :
    ∃ p k, Frame.post p ∈ fs ∧ p.pc = .inCb k ∧ p.pOptions = some optNonBlock := by
  induction h with
  | client hb | async hb _ => simp at hb
  | sync hp hi hr h ih =>
    obtain ⟨p, k, hm, hp, ho⟩ := ih
    exact ⟨p, k, by simp [hm], hp, ho⟩
  | @replay f p k _ _ _ hp _ _ _ _ ho => exact ⟨p, k, by simp, hp, ho⟩

/-- The replay is the only frame of its thread: it calls no callback. -/
theorem replay_frames (hS : Stack (s.base t) (s.frames t)) (hK : ∀ p, .post p ∈ s.frames t → p.Kind s.ctx.isSyncMode)
    (hy : s.ctx.isSyncMode = false) (hb : s.base t = .async i g (.replay q)) :
    ∃ f, s.frames t = [.post f] ∧ f.isReplay = true ∧ f.pOptions = some optNonBlock ∧ f.pEvtDesc = q.desc := by
  have hno : ∀ {fs}, UserStack (s.base t) fs → (∀ x ∈ fs, x ∈ s.frames t) → False := fun {fs} h hsub => by
    rw [hb] at h
    obtain ⟨p, k, hm, hp, ho⟩ := h.of_replay
    have := (hK p (hsub _ hm)).inCb k hp
    simp [hy, ho] at this
  generalize hfs : s.frames t = fs at hS hno ⊢
  cases hS with
  | user h => exact (hno h fun _ h => h).elim
  | sub h | unsub h | post _ _ h => exact (hno h fun _ h => List.mem_cons_of_mem _ h).elim
  | replay _ hr hb' hd ho =>
    rw [hb] at hb'
    cases hb'
    exact ⟨_, rfl, hr, ho, hd⟩
  | idle hb' hpc =>
    rw [hb] at hb'
    cases hb'
    exact hpc.elim
  | gone hb' => simp [hb] at hb'

/-- The thread is in the drain loop. -/
def AsyncPc.inDrain : AsyncPc abi → Bool
  | .drain | .drainChk _ | .replay _ | .drained _ _ => true
  | _ => false

/-- The steps between two replays. -/
theorem Trans.drainStep_idle (h : Trans s t a s') (hh' : s'.halted = none) {pc : AsyncPc abi}
    (hb : s.base t = .async i g pc) (hf : s.frames t = []) (hpc : pc.inDrain = true) : DrainStep s s' t i g := by
  have hw : ∀ {k m q}, s.base t = .async k m q → i = k ∧ g = m ∧ pc = q := fun h => by simpa using hb.symm.trans h
  cases h
  case asyncDrain hb' _ =>
    obtain ⟨rfl, rfl, rfl⟩ := hw hb'
    exact .checked hb (by simp; rfl) rfl
  case asyncReplay hb' hc =>
    obtain ⟨rfl, rfl, rfl⟩ := hw hb'
    exact .begun hb hc (by simp; rfl) (by simp; rfl) (by rfl) rfl
  case asyncTop hb' _ =>
    obtain ⟨rfl, rfl, rfl⟩ := hw hb'
    exact .left hb (by simp) rfl
  case asyncRetire hb' =>
    obtain ⟨rfl, rfl, rfl⟩ := hw hb'
    exact .retired hb (by simp) (by simp [State.suber])
  case asyncRedo hb' hr _ =>
    obtain ⟨rfl, rfl, rfl⟩ := hw hb'
    exact .redone hb hr (by simp) rfl
  case halt | haltPush | haltRetire => simp at hh'
  case call hu => rcases hu with ⟨-, hb'⟩ | ⟨c, fs, hf'⟩ <;> simp_all
  case asyncStart hb' | asyncWake hb' | asyncCall hb' _ =>
    obtain ⟨rfl, rfl, rfl⟩ := hw hb'
    simp [AsyncPc.inDrain] at hpc
  case asyncExit hb' hp _ _ _ | asyncWait hb' hp _ _ _ | asyncTake hb' hp _ _ =>
    obtain ⟨rfl, rfl, rfl⟩ := hw hb'
    rcases hp with rfl | rfl <;> simp [AsyncPc.inDrain] at hpc
  all_goals simp_all

/-- The steps of a replay that finds the context mutex free and its queues not full. -/
theorem Trans.drainStep_replay (hT : ThreadInv s) (hA : AllocInv s) (hH : HolderInv s) (h : Trans s t a s')
    (hh' : s'.halted = none) (hb : s.base t = .async i g (.replay q)) (hf : s.frames t = [.post f])
    (hr : f.isReplay = true) (ho : f.pOptions = some optNonBlock) (hy : s.ctx.isSyncMode = false)
    (hlock : f.pc = .lock → (RecMutex.tryLock s.ctx.mutex t).isSome = true)
    (hroom : ∀ k, f.pc = .push k → (s.suber k).evtQueue.hasRoom = true) : DrainStep s s' t i g := by
  have hS := hT.stack t
  have hw : ∀ {p fs}, s.frames t = .post p :: fs → f = p ∧ fs = [] := fun h => by simpa using hf.symm.trans h
  have hasync : s.isSync f = false := by simp [State.isSync, ho, hy]
  have hlt : ∀ k, f.pc.slot = some k → k < s.ctx.maxSuberNum.toNat := fun k hk => (hH.post t f [] k hf hk).lt
  have hbase : ∀ k, ((s.withThread k).base t) = s.base t := fun k =>
    State.withThread_base_self (hT.ne_nextTid (by simp [hf]))
  have hal : s.ctx.isAlloced = true := by
    by_contra hal
    exact hA.base (by simpa using hal) t i g _ hb
  cases h
  case postLock hf' hp _ _ =>
    obtain ⟨rfl, rfl⟩ := hw hf'
    exact .locked hb hf hp hb (by simp) rfl
  case postNotFound ha => simp [hal] at ha
  case postBusy hf' hp hm _ | postCache hf' hp hm _ _ _ _ | postCacheFull hf' hp hm _ _ _ _ =>
    obtain ⟨rfl, rfl⟩ := hw hf'
    simp [hm] at hlock
    exact absurd hp hlock
  case postSkip k hf' hp hk _ =>
    obtain ⟨rfl, rfl⟩ := hw hf'
    exact .went hb hf (by simp [hp]) hb (by simp; rfl) (by simp) (by rfl) (by exact id)
      (by simp [hp, PostPc.stepsLeft]; omega) rfl
  case postASync k hf' hp hk _ _ =>
    obtain ⟨rfl, rfl⟩ := hw hf'
    exact .went hb hf (by simp [hp]) hb (by simp; rfl) (by simp) (by rfl) (by exact id)
      (by simp [hp, PostPc.stepsLeft]) rfl
  case postAccept k hf' hp _ _ =>
    obtain ⟨rfl, rfl⟩ := hw hf'
    refine .went hb hf (by simp [hp]) (by simpa [hbase] using hb) (by simp; rfl) (by simp) (by rfl) ?_
      (by simp [hp, PostPc.stepsLeft]) (by by_cases hk : i = k <;> simp [State.suber, hk])
    intro hv v hm
    rcases List.mem_append.mp hm with hm | hm
    · exact hv v hm
    · rw [List.mem_singleton.mp hm]
  case postSignal k _ hf' hp hw' =>
    obtain ⟨rfl, rfl⟩ := hw hf'
    have hk := hlt k (by rw [hp]; rfl)
    have hb' := hw'.base_self hS (by simp [hf])
    obtain ⟨b, rfl, -⟩ := hw'.eq
    exact .went hb hf (by simp [hp]) (hb'.trans hb) (by simp; rfl) (by simp) (by rfl) (by exact id)
      (by simp [hp, PostPc.stepsLeft]; omega) rfl
  case postEnd k hf' hp hk =>
    obtain ⟨rfl, rfl⟩ := hw hf'
    refine .returned hb hf hp hk ?_ (by simp [State.suber])
    simp [State.retPost, hr, hb]
  case postSync hf' _ _ _ hs =>
    obtain ⟨rfl, rfl⟩ := hw hf'
    simp [hasync] at hs
  case postFull k hf' hp _ hnr _ =>
    obtain ⟨rfl, rfl⟩ := hw hf'
    simp [hroom k hp] at hnr
  case postRetry k hf' hp _ hnr _ _ =>
    obtain ⟨rfl, rfl⟩ := hw hf'
    simp [hroom k hp] at hnr
  case postRetrySignal hf' hp hw' =>
    obtain ⟨rfl, rfl⟩ := hw hf'
    have hb' := hw'.base_self hS (by simp [hf])
    obtain ⟨b, rfl, -⟩ := hw'.eq
    exact .went hb hf (by simp [hp]) (hb'.trans hb) (by simp; rfl) (by simp) (by rfl) (by exact id)
      (by simp [hp, PostPc.stepsLeft]) rfl
  case halt | haltPush | haltRetire => simp at hh'
  case call hu => rcases hu with ⟨hf', -⟩ | ⟨c, fs, hf'⟩ <;> simp [hf] at hf'
  all_goals simp_all

/-- The context mutex is free for the replay of `t` that asks for it, and the queue that it comes to has room. -/
def State.lands (s : State abi) (t : Tid) : Bool :=
  match s.frames t with
  | .post f :: _ =>
    match f.pc with
    | .lock => (RecMutex.tryLock s.ctx.mutex t).isSome
    | .push j => (s.suber j).evtQueue.hasRoom
    | _ => true
  | _ => true

theorem Trans.drainStep (hr : Reach ok maxSuberNum clients s) (h : Trans s t a s') (hh' : s'.halted = none)
    {pc : AsyncPc abi} (hb : s.base t = .async i g pc) (hpc : pc.inDrain = true) (hl : s.lands t = true) :
    DrainStep s s' t i g := by
  have hT := threadInv_reach hr
  have hS := hT.stack t
  cases pc with
  | replay q =>
    obtain ⟨f, hf, hrep, ho, -⟩ := replay_frames hS (kind_reach hr t) (isSyncMode_reach hr) hb
    simp only [State.lands, hf] at hl
    exact h.drainStep_replay hT (allocInv_reach hr) (holderInv_reach hr) hh' hb hf hrep ho (isSyncMode_reach hr)
      (fun hp => by simpa [hp] using hl) fun k hp => by simpa [hp] using hl
  | drain | drainChk _ | drained _ _ =>
    rw [hb] at hS
    exact h.drainStep_idle hh' hb (hS.of_idle trivial) hpc
  | _ => simp [AsyncPc.inDrain] at hpc

/-! ### The loop as it is watched -/

/-- Thread `t` is in the drain loop. -/
def State.inDrain (s : State abi) (t : Tid) : Bool :=
  match s.base t with
  | .async _ _ pc => pc.inDrain
  | _ => false

/-- Thread `t` replays a cached event. -/
def State.replays (s : State abi) (t : Tid) : Bool :=
  match s.base t with
  | .async _ _ (.replay _) => true
  | _ => false

/-- Whether a subscription lists the event of the replay of `t` that obtains the context mutex. -/
def State.finds (s : State abi) (t : Tid) : List Bool :=
  match s.base t, s.frames t with
  | .async _ _ (.replay _), .post f :: _ => if f.pc = .lock then [s.listsFrom 0 (s.desc t f)] else []
  | _, _ => []

/-- A run of all threads while `t` is in the drain loop: the iterations begun, the steps of `t`, and for each replay
that obtained the context mutex whether a subscription listed its event there. -/
structure DrainRun (abi : Abi) where
  state : State abi
  turns : ℕ
  steps : ℕ
  matched : List Bool

def DrainRun.start (s : State abi) : DrainRun abi := ⟨s, 0, 0, []⟩

def DrainRun.next (t : Tid) (x : DrainRun abi) (y : Tid × Act abi) : Option (DrainRun abi) :=
  if x.state.inDrain t then
    (Ioc.next x.state y).map fun s' =>
      { state := s'
        turns := x.turns + if !x.state.replays t && s'.replays t then 1 else 0
        steps := x.steps + if y.1 = t then 1 else 0
        matched := x.matched ++ if y.1 = t then x.state.finds t else [] }
  else none

/-- No slot is refilled over a running thread, and the replays of `t` find the mutex free and their queues not full. -/
def DrainRun.lands (t : Tid) (x : DrainRun abi) (y : Tid × Act abi) : Prop :=
  noReuse x.state y = true ∧ (y.1 = t → x.state.lands t = true)

instance (x : DrainRun abi) (y : Tid × Act abi) : Decidable (x.lands t y) :=
  inferInstanceAs (Decidable (_ ∧ _))

theorem DrainRun.next_eq {x y : DrainRun abi} (h : x.next t (u, a) = some y) :
    x.state.inDrain t = true ∧ Ioc.next x.state (u, a) = some y.state ∧
      y.turns = x.turns + (if !x.state.replays t && y.state.replays t then 1 else 0) ∧
      y.steps = x.steps + (if u = t then 1 else 0) ∧
      y.matched = x.matched ++ if u = t then x.state.finds t else [] := by
  unfold DrainRun.next at h
  split at h
  · rename_i hin
    obtain ⟨s', hs, rfl⟩ := Option.map_eq_some_iff.mp h
    exact ⟨hin, hs, rfl, rfl, rfl⟩
  · simp at h

/-! ### The end of a replay -/

/-- A replay whose queues had room has succeeded exactly if a subscription listed its event. -/
theorem PostFrame.value_eq_success {k : ℕ} (hS : f.Sound) (hC : f.Covers n) (hG : f.Steady) (hp : f.pc = .loop k) (hk : ¬ k < n)
    (hv : ∀ v ∈ f.visits, v.2 = .queue true) : f.value = .success ↔ ∃ j, j < n ∧ f.lists j = true := by
  simp only [PostFrame.Sound, PostFrame.Covers, hp] at hS hC
  obtain ⟨hkn, -, hC⟩ := hC
  obtain rfl : k = n := by omega
  have hmem : ∀ j, j ∈ f.visits.map Prod.fst ↔ j < k ∧ f.lists j = true := fun j => by
    rw [hC, List.mem_filter, List.mem_range, hG.matched, hG.listed]
  rw [hS.1]
  by_cases hne : f.visits = []
  · simp only [hne, fanOutResult, List.getLast?_nil, reduceCtorEq, false_iff]
    rintro ⟨j, hj⟩
    have := (hmem j).mpr hj
    simp [hne] at this
  · have hlast := List.getLast_mem hne
    rw [fanOutResult, List.getLast?_eq_some_getLast hne]
    simp only [hv _ hlast, Visit.outcome, true_iff]
    exact ⟨_, (hmem _).mp (List.mem_map_of_mem hlast)⟩

/-! ### What the iterations have done -/

/-- The entries in the cache and the iterations `ms` that found a subscription make up the `N` entries at the start. -/
def DrainRun.Accounts (x : DrainRun abi) (i N : ℕ) (ms : List Bool) : Prop :=
  (x.state.suber i).evtCached.pending + ms.count true = N

/-- Where the thread stands in the loop, and what its iterations have done so far. -/
inductive DrainRun.At (x : DrainRun abi) (t : Tid) (i g n N : ℕ) : Prop
  | between {pc : AsyncPc abi} (hb : x.state.base t = .async i g pc)
      (hpc : pc = .drain ∨ pc = .top ∨ ∃ e, pc = .drainChk e) (ht : x.turns = x.matched.length)
      (hN : x.Accounts i N x.matched)
  | begun {q : CachedPtr abi} {f : PostFrame abi} (hb : x.state.base t = .async i g (.replay q))
      (hf : x.state.frames t = [.post f]) (hp : f.pc = .lock) (ht : x.turns = x.matched.length + 1)
      (hc : 0 < (x.state.suber i).evtCached.pending) (hN : x.Accounts i N x.matched)
  | going {q : CachedPtr abi} {f : PostFrame abi} {ms : List Bool} {b : Bool}
      (hb : x.state.base t = .async i g (.replay q)) (hf : x.state.frames t = [.post f]) (hp : f.pc ≠ .lock)
      (hm : x.matched = ms ++ [b]) (ht : x.turns = ms.length + 1) (hc : 0 < (x.state.suber i).evtCached.pending)
      (hN : x.Accounts i N ms) (hl : b = true ↔ ∃ j, j < n ∧ f.lists j = true)
      (hv : ∀ v ∈ f.visits, v.2 = .queue true)
  | ended {q : CachedPtr abi} {r : TosResult} {ms : List Bool} {b : Bool}
      (hb : x.state.base t = .async i g (.drained q r)) (hm : x.matched = ms ++ [b]) (ht : x.turns = ms.length + 1)
      (hc : 0 < (x.state.suber i).evtCached.pending) (hN : x.Accounts i N ms) (hr : r = .success ↔ b = true)

section

variable {x y : DrainRun abi} {pc : AsyncPc abi} {ms : List Bool}

theorem DrainRun.At.of_between (h : x.At t i g n N) (hb : x.state.base t = .async i g pc)
    (hpc : pc = .drain ∨ ∃ e, pc = .drainChk e) : x.turns = x.matched.length ∧ x.Accounts i N x.matched := by
  cases h with
  | between _ _ ht hN => exact ⟨ht, hN⟩
  | begun hb' | going hb' | ended hb' =>
    obtain rfl := (Base.async.inj (hb.symm.trans hb')).2.2
    simp at hpc

theorem DrainRun.At.of_begun (h : x.At t i g n N) (hb : x.state.base t = .async i g (.replay q))
    (hf : x.state.frames t = [.post f]) (hp : f.pc = .lock) :
    x.turns = x.matched.length + 1 ∧ 0 < (x.state.suber i).evtCached.pending ∧ x.Accounts i N x.matched := by
  cases h with
  | begun _ _ _ ht hc hN => exact ⟨ht, hc, hN⟩
  | going _ hf' hp' =>
    obtain rfl : f = _ := by simpa using hf.symm.trans hf'
    exact absurd hp hp'
  | between hb' hpc =>
    obtain rfl := (Base.async.inj (hb.symm.trans hb')).2.2
    simp at hpc
  | ended hb' => simp [hb] at hb'

theorem DrainRun.At.of_going (h : x.At t i g n N) (hb : x.state.base t = .async i g (.replay q))
    (hf : x.state.frames t = [.post f]) (hp : f.pc ≠ .lock) :
    ∃ ms b, x.matched = ms ++ [b] ∧ x.turns = ms.length + 1 ∧ 0 < (x.state.suber i).evtCached.pending ∧
      x.Accounts i N ms ∧ (b = true ↔ ∃ j, j < n ∧ f.lists j = true) ∧ ∀ v ∈ f.visits, v.2 = .queue true := by
  cases h with
  | going _ hf' _ hm ht hc hN hl hv =>
    obtain rfl : f = _ := by simpa using hf.symm.trans hf'
    exact ⟨_, _, hm, ht, hc, hN, hl, hv⟩
  | begun _ hf' hp' =>
    obtain rfl : f = _ := by simpa using hf.symm.trans hf'
    exact absurd hp' hp
  | between hb' hpc =>
    obtain rfl := (Base.async.inj (hb.symm.trans hb')).2.2
    simp at hpc
  | ended hb' => simp [hb] at hb'

theorem DrainRun.At.of_ended (h : x.At t i g n N) (hb : x.state.base t = .async i g (.drained q r)) :
    ∃ ms b, x.matched = ms ++ [b] ∧ x.turns = ms.length + 1 ∧ 0 < (x.state.suber i).evtCached.pending ∧
      x.Accounts i N ms ∧ (r = .success ↔ b = true) := by
  cases h with
  | @ended q' r' _ _ hb' hm ht hc hN hr =>
    obtain ⟨rfl, rfl⟩ : q = q' ∧ r = r' := by simpa using hb.symm.trans hb'
    exact ⟨_, _, hm, ht, hc, hN, hr⟩
  | between hb' hpc =>
    obtain rfl := (Base.async.inj (hb.symm.trans hb')).2.2
    simp at hpc
  | begun hb' | going hb' => simp [hb] at hb'

theorem DrainRun.Accounts.next (hN : x.Accounts i N ms)
    (hx : (y.state.suber i).evtCached = (x.state.suber i).evtCached) : y.Accounts i N ms := by
  show (y.state.suber i).evtCached.pending + ms.count true = N
  rw [hx]
  exact hN

/-- A step that begins no iteration and is not at the lock of a replay. -/
theorem DrainRun.same_counts (hrep : x.state.replays t = true ∨ y.state.replays t = false)
    (hf : x.state.finds t = []) (ht : y.turns = x.turns + if !x.state.replays t && y.state.replays t then 1 else 0)
    (hm : y.matched = x.matched ++ x.state.finds t) : y.turns = x.turns ∧ y.matched = x.matched := by
  rw [hf, List.append_nil] at hm
  refine ⟨?_, hm⟩
  rcases hrep with h | h
  · simpa [h] using ht
  · simpa [h] using ht

/-- The steps of the thread itself. -/
theorem DrainRun.At.next_self (hok : ∀ s x, ok s x → noReuse s x = true) (hr : Reach ok maxSuberNum clients x.state)
    (hh : x.state.halted = none) (hA : x.At t i g maxSuberNum.toNat N) (h : DrainStep x.state y.state t i g)
    (ht : y.turns = x.turns + if !x.state.replays t && y.state.replays t then 1 else 0)
    (hm : y.matched = x.matched ++ x.state.finds t) : y.At t i g maxSuberNum.toNat N := by
  cases h with
  | checked hb hb' hx =>
    obtain ⟨hturns, hN⟩ := hA.of_between hb (.inl rfl)
    obtain ⟨ht, hm⟩ := DrainRun.same_counts (.inr (by simp [State.replays, hb'])) (by simp [State.finds, hb]) ht hm
    exact .between hb' (.inr (.inr ⟨_, rfl⟩)) (by rw [ht, hm, hturns]) (hm ▸ hN.next hx)
  | left hb hb' hx =>
    obtain ⟨hturns, hN⟩ := hA.of_between hb (.inr ⟨_, rfl⟩)
    obtain ⟨ht, hm⟩ := DrainRun.same_counts (.inr (by simp [State.replays, hb'])) (by simp [State.finds, hb]) ht hm
    exact .between hb' (.inr (.inl rfl)) (by rw [ht, hm, hturns]) (hm ▸ hN.next hx)
  | begun hb hc hb' hf' hp hx =>
    obtain ⟨hturns, hN⟩ := hA.of_between hb (.inr ⟨_, rfl⟩)
    simp only [State.replays, State.finds, hb, hb', Bool.not_false, Bool.and_self, if_true, List.append_nil] at ht hm
    exact .begun hb' hf' hp (by rw [ht, hm, hturns]) (by rw [hx]; exact hc) (hm ▸ hN.next hx)
  | @locked q f hb hf hp hb' hf' hx =>
    obtain ⟨hturns, hc, hN⟩ := hA.of_begun hb hf hp
    simp only [State.replays, State.finds, hb, hb', hf, hp, Bool.not_true, Bool.false_and, Bool.false_eq_true, if_false,
      if_true, Nat.add_zero] at ht hm
    have hS := sound_reach hr t f (by simp [hf])
    simp only [PostFrame.Sound, hp] at hS
    refine .going hb' hf' (by simp) hm (by rw [ht, hturns]) (by rw [hx]; exact hc) (hN.next hx) ?_ (by simp [hS.1])
    rw [State.listsFrom_iff, maxSuberNum_reach hr, desc_of_noReuse hok hr hh hf]
    simp [PostFrame.lists, State.suber]
  | @went q f f' hb hf hp hb' hf' hp' hl hv _ hx =>
    obtain ⟨ms, b, hms, hturns, hc, hN, hlist, hvis⟩ := hA.of_going hb hf hp
    obtain ⟨ht, hm⟩ := DrainRun.same_counts (.inl (by simp [State.replays, hb])) (by simp [State.finds, hb, hf, hp]) ht hm
    exact .going hb' hf' hp' (hm.trans hms) (ht.trans hturns) (by rw [hx]; exact hc) (hN.next hx) (by rw [hl]; exact hlist)
      (hv hvis)
  | @returned q f k hb hf hp hk hb' hx =>
    have hlock : f.pc ≠ .lock := by simp [hp]
    obtain ⟨ms, b, hms, hturns, hc, hN, hlist, hvis⟩ := hA.of_going hb hf hlock
    obtain ⟨ht, hm⟩ := DrainRun.same_counts (.inl (by simp [State.replays, hb])) (by simp [State.finds, hb, hf, hp]) ht hm
    have hmem : Frame.post f ∈ x.state.frames t := by simp [hf]
    have hasync : x.state.isSync f = false := by
      obtain ⟨f', hf', -, ho, -⟩ :=
        replay_frames ((threadInv_reach hr).stack t) (kind_reach hr t) (isSyncMode_reach hr) hb
      obtain rfl : f = f' := by simpa using hf.symm.trans hf'
      simp [State.isSync, ho, isSyncMode_reach hr]
    rw [maxSuberNum_reach hr] at hk
    refine .ended hb' (hm.trans hms) (ht.trans hturns) (by rw [hx]; exact hc) (hN.next hx) ?_
    rw [hlist]
    exact PostFrame.value_eq_success (sound_reach hr t f hmem) (coversAsync_reach hr hmem hasync)
      (steady_of_noReuse hok hr hmem hasync) hp hk hvis
  | retired hb hb' hx =>
    obtain ⟨ms, b, hms, hturns, hc, hN, hres⟩ := hA.of_ended hb
    obtain ⟨ht, hm⟩ := DrainRun.same_counts (.inr (by simp [State.replays, hb'])) (by simp [State.finds, hb]) ht hm
    obtain rfl : b = true := hres.mp rfl
    refine .between hb' (.inl rfl) (by rw [ht, hm, hturns, hms]; simp) ?_
    have hpop := WrapRing.pending_pop (x.state.suber i).evtCached (by omega)
    have hsum : (x.state.suber i).evtCached.pending + ms.count true = N := hN
    show (y.state.suber i).evtCached.pending + y.matched.count true = N
    rw [hx, hm, hms, List.count_append, List.count_singleton_self]
    omega
  | redone hb hne hb' hx =>
    obtain ⟨ms, b, hms, hturns, hc, hN, hres⟩ := hA.of_ended hb
    obtain ⟨ht, hm⟩ := DrainRun.same_counts (.inr (by simp [State.replays, hb'])) (by simp [State.finds, hb]) ht hm
    obtain rfl : b = false := by simpa using fun h => hne (hres.mpr h)
    refine .between hb' (.inl rfl) (by rw [ht, hm, hturns, hms]; simp) ?_
    show (y.state.suber i).evtCached.pending + y.matched.count true = N
    rw [hx, hm, hms, List.count_append]
    exact hN

/-- In the loop the thread stands at a program point of the loop. -/
theorem DrainRun.At.stands (h : x.At t i g n N) (hin : x.state.inDrain t = true) :
    ∃ pc, x.state.base t = .async i g pc ∧ pc.inDrain = true := by
  cases h with
  | between hb | begun hb | going hb | ended hb =>
    simp only [State.inDrain, hb] at hin
    exact ⟨_, hb, hin⟩

/-- A step that leaves the thread and its cache alone. -/
theorem DrainRun.At.next_ne (hA : x.At t i g n N) (hb : y.state.base t = x.state.base t)
    (hf : y.state.frames t = x.state.frames t) (hx : (y.state.suber i).evtCached = (x.state.suber i).evtCached)
    (ht : y.turns = x.turns) (hm : y.matched = x.matched) : y.At t i g n N := by
  cases hA with
  | between hb₀ hpc hturns hN => exact .between (hb.trans hb₀) hpc (by rw [ht, hm, hturns]) (hm ▸ hN.next hx)
  | begun hb₀ hf₀ hp hturns hc hN =>
    exact .begun (hb.trans hb₀) (hf.trans hf₀) hp (by rw [ht, hm, hturns]) (by rw [hx]; exact hc) (hm ▸ hN.next hx)
  | going hb₀ hf₀ hp hms hturns hc hN hl hv =>
    exact .going (hb.trans hb₀) (hf.trans hf₀) hp (hm.trans hms) (ht.trans hturns) (by rw [hx]; exact hc) (hN.next hx) hl
      hv
  | ended hb₀ hms hturns hc hN hr =>
    exact .ended (hb.trans hb₀) (hm.trans hms) (ht.trans hturns) (by rw [hx]; exact hc) (hN.next hx) hr

/-- As long as every replay finds a subscription, no more iterations are begun than there were entries. -/
theorem DrainRun.At.turns_le (hA : x.At t i g n N) (hall : ∀ b ∈ x.matched, b = true) : x.turns ≤ N := by
  have hcount : ∀ ms : List Bool, (∀ b ∈ ms, b ∈ x.matched) → ms.count true = ms.length := fun ms hsub =>
    List.count_eq_length.mpr fun b hb => (hall b (hsub b hb)).symm
  cases hA with
  | between _ _ ht hN | begun _ _ _ ht _ hN =>
    have hlen := hcount x.matched fun _ hb => hb
    have hsum : (x.state.suber i).evtCached.pending + x.matched.count true = N := hN
    omega
  | @going _ _ ms _ _ _ _ hm ht hc hN | @ended _ _ ms _ _ hm ht hc hN =>
    have hlen := hcount ms fun b hb => by simp [hm, hb]
    have hsum : (x.state.suber i).evtCached.pending + ms.count true = N := hN
    omega

end

/-! ### The steps that are left -/

/-- How many steps the thread has still to take at most to be out of the loop, if every replay succeeds. -/
def State.drainLeft (s : State abi) (t : Tid) (n : ℕ) : ℕ :=
  match s.base t, s.frames t with
  | .async i _ .drain, _ => (s.suber i).evtCached.pending * (3 * n + 5) + 2
  | .async i _ (.drainChk _), _ => (s.suber i).evtCached.pending * (3 * n + 5) + 1
  | .async i _ (.replay _), .post f :: _ => ((s.suber i).evtCached.pending - 1) * (3 * n + 5) + f.pc.stepsLeft n
  | .async i _ (.drained _ _), _ => ((s.suber i).evtCached.pending - 1) * (3 * n + 5) + 3
  | _, _ => 0

/-- A step of the thread comes closer to the end of the loop, unless it goes on from a failed replay. -/
theorem DrainStep.drainLeft_lt (h : DrainStep s s' t i g) (hn : s.ctx.maxSuberNum.toNat = n)
    (hpos : ∀ q r, s.base t = .async i g (.drained q r) → r = .success ∧ (s.suber i).evtCached.pending ≠ 0) :
    s'.drainLeft t n < s.drainLeft t n := by
  have hsucc : ∀ p, 0 < p → p * (3 * n + 5) = (p - 1) * (3 * n + 5) + (3 * n + 5) := fun p hp => by
    conv_lhs => rw [← Nat.sub_add_cancel hp, Nat.add_mul, Nat.one_mul]
  cases h with
  | checked hb hb' hx => simp [State.drainLeft, hb, hb', hx]
  | left hb hb' hx => simp [State.drainLeft, hb, hb']
  | begun hb hc hb' hf' hp hx =>
    simp only [State.drainLeft, hb, hb', hf', hp, hx, PostPc.stepsLeft]
    have hsplit := hsucc _ hc
    omega
  | locked hb hf hp hb' hf' hx =>
    simp only [State.drainLeft, hb, hb', hf, hf', hp, hx, PostPc.stepsLeft]
    omega
  | went hb hf hp hb' hf' hp' hl hv hlt hx =>
    simp only [State.drainLeft, hb, hb', hf, hf', hx]
    rw [hn] at hlt
    omega
  | returned hb hf hp hk hb' hx =>
    simp only [State.drainLeft, hb, hb', hf, hp, hx, PostPc.stepsLeft]
    omega
  | retired hb hb' hx =>
    have hc := (hpos _ _ hb).2
    have hpop := WrapRing.pending_pop _ hc
    simp only [State.drainLeft, hb, hb', hx]
    rw [← hpop, Nat.add_sub_cancel]
    omega
  | redone hb hr hb' hx => exact absurd (hpos _ _ hb).1 hr

theorem State.drainLeft_congr (hb : s'.base t = s.base t) (hf : s'.frames t = s.frames t)
    (hx : ∀ i, s.RunsOn t i → (s'.suber i).evtCached = (s.suber i).evtCached) : s'.drainLeft t n = s.drainLeft t n := by
  unfold State.drainLeft
  rw [hb, hf]
  split
  · rename_i hb
    rw [hx _ ⟨_, _, hb⟩]
  · rename_i hb
    rw [hx _ ⟨_, _, hb⟩]
  · rename_i hb _
    rw [hx _ ⟨_, _, hb⟩]
  · rename_i hb
    rw [hx _ ⟨_, _, hb⟩]
  · rfl

/-! ### The run -/

/-- The other threads leave the loop alone. -/
theorem Trans.drain_ne (hr : Reach (fun s y => noReuse s y = true) maxSuberNum clients s)
    (hok : noReuse s (u, a) = true) (h : Trans s u a s') (hu : t ≠ u) (hin : s.inDrain t = true) :
    s'.base t = s.base t ∧ s'.frames t = s.frames t ∧
      ∀ i, s.RunsOn t i → (s'.suber i).evtCached = (s.suber i).evtCached := by
  have hT := threadInv_reach hr
  have hA := allocInv_reach hr
  refine ⟨?_, h.frames_ne hu, fun i hrun => ?_⟩
  · cases h.base_ne hu with
    | same h => exact h
    | created hnew => simp [State.inDrain, (hT.fresh t hnew.ge).1] at hin
    | woken hb => simp [State.inDrain, hb, AsyncPc.inDrain] at hin
  · have hO := ownInv_reach (fun _ _ h => h) hr
    have hw := h.watchStep hA (watchInv_reach (fun _ _ h => h) hr u).storing
    have hno : ¬ s.RunsOn u i := fun hrun' => hu (hO.unique t u i hrun hrun')
    exact (hw.evtCached_ne hT hno).resolve_right fun hx => noReuse_fresh hA (slotInv_reach hr) hT hok h hx.1 hrun

/-- **What the drain loop has done, at every moment.** -/
theorem drainInv_run (h₀ : Reach (fun s y => noReuse s y = true) maxSuberNum clients s₀)
    (hb₀ : s₀.base t = .async i g .drain) (hN : (s₀.suber i).evtCached.pending = N) {x : DrainRun abi}
    (hx : Runs.ReachUnder (DrainRun.next t) (DrainRun.lands t) (.start s₀) x) :
    Reach (fun s y => noReuse s y = true) maxSuberNum clients x.state ∧
      (x.state.halted = none → x.At t i g maxSuberNum.toNat N ∧
        ((∀ b ∈ x.matched, b = true) →
          x.steps + x.state.drainLeft t maxSuberNum.toNat ≤ N * (3 * maxSuberNum.toNat + 5) + 2)) := by
  refine Runs.ReachUnder.invariant (P := fun x : DrainRun abi =>
    Reach (fun s y => noReuse s y = true) maxSuberNum clients x.state ∧
      (x.state.halted = none → x.At t i g maxSuberNum.toNat N ∧
        ((∀ b ∈ x.matched, b = true) →
          x.steps + x.state.drainLeft t maxSuberNum.toNat ≤ N * (3 * maxSuberNum.toNat + 5) + 2)))
    ⟨h₀, fun _ => ⟨.between hb₀ (.inl rfl) rfl ?_, fun _ => ?_⟩⟩ ?step hx
  · simpa [DrainRun.Accounts, DrainRun.start] using hN
  · simp [DrainRun.start, State.drainLeft, hb₀, hN]
  case step =>
    intro x y z _ hI hok hn
    obtain ⟨u, a⟩ := z
    obtain ⟨hr, hI⟩ := hI
    obtain ⟨hin, hstep, ht, hs, hm⟩ := DrainRun.next_eq hn
    obtain ⟨hh, h⟩ := next_trans hstep
    obtain ⟨hA, hleft⟩ := hI hh
    refine ⟨hr.tail (u, a) hok.1 hstep, fun hh' => ?_⟩
    have hprev : (∀ b ∈ y.matched, b = true) → ∀ b ∈ x.matched, b = true := fun hall b hb =>
      hall b (hm ▸ List.mem_append_left _ hb)
    by_cases hu : u = t
    · subst hu
      obtain ⟨pc, hb, hpc⟩ := hA.stands hin
      have hD := h.drainStep hr hh' hb hpc (hok.2 rfl)
      have hA' := hA.next_self (fun _ _ h => h) hr hh hD ht (by simpa using hm)
      refine ⟨hA', fun hall => ?_⟩
      have hlt := hD.drainLeft_lt (n := maxSuberNum.toNat) (by rw [maxSuberNum_reach hr]) fun q r hb => ?_
      · have hx := hleft (hprev hall)
        rw [if_pos rfl] at hs
        omega
      · obtain ⟨ms, b, hms, -, hc, -, hres⟩ := hA.of_ended hb
        exact ⟨hres.mpr (hprev hall b (by simp [hms])), by omega⟩
    · obtain ⟨hb, hf, hx⟩ := h.drain_ne hr hok.1 (Ne.symm hu) hin
      have hrep : y.state.replays t = x.state.replays t := by
        unfold State.replays
        rw [hb]
      rw [hrep] at ht
      simp only [Bool.not_and_self, Bool.false_eq_true, if_false, Nat.add_zero] at ht
      simp only [hu, if_false, List.append_nil, Nat.add_zero] at hs hm
      obtain ⟨pc, hb₁, -⟩ := hA.stands hin
      refine ⟨hA.next_ne hb hf (hx i ⟨_, _, hb₁⟩) ht hm, fun hall => ?_⟩
      rw [hs, State.drainLeft_congr hb hf hx]
      exact hleft (hprev hall)

/-- The thread in the drain loop can go on. -/
theorem State.drainGoesOn (hr : Reach ok maxSuberNum clients s) (hh : s.halted = none) {pc : AsyncPc abi}
    (hb : s.base t = .async i g pc) (hpc : pc.inDrain = true) (hl : s.lands t = true) :
    ∃ a s', Ioc.next s (t, a) = some s' := by
  have hS := (threadInv_reach hr).stack t
  have hfree := mutexFree_reach hr hh
  cases pc with
  | drain =>
    rw [hb] at hS
    exact ⟨.go, _, by
      simp only [Ioc.next, State.step, hh, hS.of_idle trivial, hb, State.asyncStep, Suber.lock, hfree i]; rfl⟩
  | drainChk e | drained q r =>
    rw [hb] at hS
    exact ⟨.go, _, by simp only [Ioc.next, State.step, hh, hS.of_idle trivial, hb, State.asyncStep]; rfl⟩
  | replay q =>
    obtain ⟨f, hf, -, -, -⟩ := replay_frames hS (kind_reach hr t) (isSyncMode_reach hr) hb
    rw [hf] at hS
    have hstep : ∀ a s', s.postStep t f [] a = some s' → Ioc.next s (t, a) = some s' := fun a s' h => by
      simpa [Ioc.next, State.step, hh, hf] using h
    simp only [State.lands, hf] at hl
    cases hp : f.pc with
    | lock =>
      simp only [hp] at hl
      obtain ⟨m, hm⟩ := Option.isSome_iff_exists.mp hl
      by_cases hal : s.ctx.isAlloced = true
      · exact ⟨.go, _, hstep _ _ (by simp only [State.postStep, hp, State.postLock, hm, if_pos hal]; rfl)⟩
      · exact ⟨.go, _, hstep _ _ (by simp only [State.postStep, hp, State.postLock, hm, if_neg hal]; rfl)⟩
    | loop k => exact ⟨.go, _, hstep _ _ (by simp only [State.postStep, hp]; rfl)⟩
    | push k =>
      cases hx : (s.suber k).asyncThreadID with
      | some u =>
        exact ⟨.go, _, hstep _ _ (by
          simp only [State.postStep, hp, State.postSection, Suber.lock, hfree k, hx]; rfl)⟩
      | none =>
        exact ⟨.go, _, hstep _ _ (by
          simp only [State.postStep, hp, State.postSection, Suber.lock, hfree k, hx, if_true]; rfl)⟩
    | signal k =>
      obtain ⟨w, s₁, hw⟩ := s.exists_condSignal k
      exact ⟨.signal w, _, hstep _ _ (by simp only [State.postStep, hp, hw]; rfl)⟩
    | retry k =>
      obtain ⟨w, s₁, hw⟩ := s.exists_condSignal k
      exact ⟨.signal w, _, hstep _ _ (by simp only [State.postStep, hp, hw]; rfl)⟩
    | inCb k => exact absurd hp (hS.of_post.1 k)
  | _ => simp [AsyncPc.inDrain] at hpc

/-! ### The law -/

/-- **The drain loop.**  Each replay finds the context mutex free and its queues not full.  Then each iteration so far
has retired its event exactly if each replay found, when it obtained the mutex, a subscription that lists the event.  As
long as they do, no more iterations are begun than there were cached events, and the thread takes a bounded number of
steps in the loop; it can always take the next one. -/
theorem drain_iff (h₀ : Reach (fun s y => noReuse s y = true) maxSuberNum clients s₀)
    (hb₀ : s₀.base t = .async i g .drain) (hN : (s₀.suber i).evtCached.pending = N) {x : DrainRun abi}
    (hx : Runs.ReachUnder (DrainRun.next t) (DrainRun.lands t) (.start s₀) x) (hh : x.state.halted = none) :
    (x.state.base t = .async i g .drain ∨ x.state.base t = .async i g .top →
      ((x.state.suber i).evtCached.pending + x.turns = N ↔ ∀ b ∈ x.matched, b = true)) ∧
    ((∀ b ∈ x.matched, b = true) →
      x.turns ≤ N ∧ x.steps ≤ N * (3 * maxSuberNum.toNat + 5) + 2) ∧
    (x.state.inDrain t = true → x.state.lands t = true → ∃ a s', Ioc.next x.state (t, a) = some s') := by
  obtain ⟨hr, hI⟩ := drainInv_run h₀ hb₀ hN hx
  obtain ⟨hA, hleft⟩ := hI hh
  refine ⟨fun hb => ?_, fun hall => ⟨hA.turns_le hall, ?_⟩, fun hin hl => ?_⟩
  · obtain ⟨ht, hacc⟩ : x.turns = x.matched.length ∧ x.Accounts i N x.matched := by
      cases hA with
      | between _ _ ht hacc => exact ⟨ht, hacc⟩
      | begun hb' | going hb' | ended hb' => rcases hb with hb | hb <;> simp [hb] at hb'
    have hsum : (x.state.suber i).evtCached.pending + x.matched.count true = N := hacc
    have hcount : x.matched.count true = x.matched.length ↔ ∀ b ∈ x.matched, b = true := by
      rw [List.count_eq_length]
      exact forall₂_congr fun b _ => eq_comm
    rw [← hcount]
    omega
  · have hbound := hleft hall
    omega
  · obtain ⟨pc, hb, hpc⟩ := hA.stands hin
    exact State.drainGoesOn hr hh hb hpc hl

/-- A callback on thread `1` posts event `8` while thread `0` still holds the context mutex, and returns to the drain
loop; the only subscription is to the events `ids`, and `skips` slots follow it. -/
def eightCached (ids : List EvtID) (skips : ℕ) : List (Tid × Act lp64) :=
  ([(0, .call (.subEVT ⟨1, 1, some ids⟩)), (0, .go), (0, .call (.postEVT (.ofID lp64 7) none)), (0, .go), (0, .go),
    (0, .go), (0, .signal none), (1, .go), (1, .go), (1, .go), (1, .call (.postEVT (.ofID lp64 8) none)), (1, .go),
    (1, .ret .success)] : List (Tid × Act lp64)) ++ List.replicate (skips + 1) (0, .go)

/-- Nobody has subscribed to the cached event: two iterations leave it in the cache, and the loop goes on. -/
theorem drain_spins :
    ∃ (s₀ : State lp64) (x : DrainRun lp64), Reach (fun s y => noReuse s y = true) (initMaxSuberNum lp64) 1 s₀ ∧
      s₀.base 1 = .async 0 1 .drain ∧ (s₀.suber 0).evtCached.pending = 1 ∧
      Runs.ReachUnder (DrainRun.next 1) (DrainRun.lands 1) (.start s₀) x ∧ x.state.halted = none ∧
      x.state.base 1 = .async 0 1 .drain ∧ (x.state.suber 0).evtQueue.isEmpty = true ∧
      (x.state.suber 0).evtCached.pending = 1 ∧ x.turns = 2 := by
  obtain ⟨s₀, hr₀, hs₀⟩ := reach_of_run (fun s y => noReuse s y = true) (initMaxSuberNum lp64) 1 (eightCached [7] 31)
    (fun s : State lp64 => decide (s.base 1 = .async 0 1 .drain) && (s.suber 0).evtCached.pending == 1 &&
      (Runs.runUnder (DrainRun.next 1) (DrainRun.lands 1) (List.replicate 74 (1, .go)) (.start s)).any
        fun x : DrainRun lp64 => x.state.halted == none && decide (x.state.base 1 = .async 0 1 .drain) &&
          (x.state.suber 0).evtQueue.isEmpty && (x.state.suber 0).evtCached.pending == 1 && x.turns == 2)
    (by decide +kernel)
  simp only [Option.any_eq_true, Bool.and_eq_true, decide_eq_true_eq, beq_iff_eq] at hs₀
  obtain ⟨⟨hb, hN⟩, x, hx, ⟨⟨⟨hh, hb'⟩, he⟩, hc⟩, ht⟩ := hs₀
  exact ⟨s₀, x, hr₀, hb, hN, Runs.runUnder_reach hx, hh, hb', he, hc, ht⟩

/-- The subscription is to the cached event too: one iteration retires it, and the thread leaves the loop. -/
theorem drain_iff_retired :
    ∃ (s₀ : State lp64) (x : DrainRun lp64), (s₀.suber 0).evtCached.pending = 1 ∧ x.matched = [true] ∧
      x.state.base 1 = .async 0 1 .top ∧
      ((x.state.suber 0).evtCached.pending + x.turns = 1 ↔ ∀ b ∈ x.matched, b = true) ∧
      x.turns ≤ 1 ∧ x.steps ≤ 1 * (3 * 1 + 5) + 2 := by
  obtain ⟨s₀, hr₀, hs₀⟩ := reach_of_run (fun s y => noReuse s y = true) (1 : ULong lp64) 1 (eightCached [7, 8] 0)
    (fun s : State lp64 => decide (s.base 1 = .async 0 1 .drain) && (s.suber 0).evtCached.pending == 1 &&
      (Runs.runUnder (DrainRun.next 1) (DrainRun.lands 1)
        ([(1, .go), (1, .go), (1, .go), (1, .go), (1, .go), (1, .signal none), (1, .go), (1, .go), (1, .go), (1, .go)] :
          List (Tid × Act lp64)) (.start s)).any
        fun x : DrainRun lp64 => x.state.halted == none && x.matched == [true] &&
          decide (x.state.base 1 = .async 0 1 .top)) (by decide +kernel)
  simp only [Option.any_eq_true, Bool.and_eq_true, decide_eq_true_eq, beq_iff_eq] at hs₀
  obtain ⟨⟨hb, hN⟩, x, hx, ⟨hh, hm⟩, hb'⟩ := hs₀
  obtain ⟨hiff, hle, -⟩ := drain_iff hr₀ hb hN (Runs.runUnder_reach hx) hh
  obtain ⟨ht, hsteps⟩ := hle (by simp [hm])
  exact ⟨s₀, x, hN, hm, hb', hiff (.inr hb'), ht, hsteps⟩

end PlatIF.Ioc
