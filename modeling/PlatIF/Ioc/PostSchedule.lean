import PlatIF.Ioc.PostRun

/-!
# A schedule for a post

A post from a quiescent state can be run to its end before anybody else moves, and the threads of its slots can then
deliver one after the other, in any order.

* `PostRun.Inv.returns` — the post comes to its end;
* `PostRun.Inv.deliver` — the thread of a slot delivers the event that is queued;
* `deliver_all` — all that is queued is delivered, in any order.
-/

namespace PlatIF.Ioc

variable {abi : Abi} {s s' s₀ s₁ s₂ : State abi} {p t u v : Tid} {a : Act abi} {i j g n : ℕ} {d e : EvtDesc abi}
  {f : PostFrame abi} {r : TosResult} {rest : List (Frame abi)} {maxSuberNum : ULong abi} {clients : ℕ}
  {o : Option Options} {ok : State abi → Tid × Act abi → Prop} {x y : PostRun abi} {N : ℕ}
  {ans : Called abi → TosResult}

/-! ### The post comes to its end -/

/-- How many steps the post of `p` has still to take. -/
def State.postLeft (s : State abi) (p : Tid) (N : ℕ) : ℕ :=
  match s.frames p with
  | .post f :: _ | .cb _ :: .post f :: _ => f.pc.stepsLeft N
  | _ => 0

theorem State.postLeft_nil (hf : s.frames p = []) : s.postLeft p N = 0 := by
  rw [State.postLeft, hf]

theorem State.postLeft_post {l : List (Frame abi)} (hf : s.frames p = .post f :: l) : s.postLeft p N = f.pc.stepsLeft N := by
  rw [State.postLeft, hf]

theorem State.postLeft_cb {c : CbFrame abi} {l : List (Frame abi)} (hf : s.frames p = .cb c :: .post f :: l) :
    s.postLeft p N = f.pc.stepsLeft N := by
  rw [State.postLeft, hf]

theorem PostPc.stepsLeft_pos (pc : PostPc) : 0 < pc.stepsLeft N := by
  cases pc <;> simp [PostPc.stepsLeft]

/-- The next step of the post can be taken, and brings it closer to its end. -/
def State.PostGoes (s : State abi) (p : Tid) (N : ℕ) (a : Act abi) : Prop :=
  ∃ s', Ioc.next s (p, a) = some s' ∧ s'.halted = none ∧ s'.postLeft p N < s.postLeft p N

/-- The step of a post that stands at its lock. -/
theorem postGoes_lock (hh : s.halted = none) (hf : s.frames p = [.post f]) (hp : f.pc = .lock)
    (ho : RecMutex.tryLock s.ctx.mutex p = none → isNonBlock f.pOptions = true ∨ isTimeout f.pOptions = true) :
    s.PostGoes p N .go ∨ s.PostGoes p N .timeout := by
  have hstep : ∀ {a s'}, s.postLock p f [] a = some s' → Ioc.next s (p, a) = some s' := fun h => by
    simpa [Ioc.next, State.step, hh, hf, State.postStep, hp] using h
  have hleft : s.postLeft p N = 3 * N + 5 := by
    rw [State.postLeft_post hf, hp, PostPc.stepsLeft]
  -- a return leaves nothing to do
  have hret : ∀ {a m r}, s.postLock p f [] a = some ((s.setMutex m).retPost p f [] r) → s.PostGoes p N a :=
    fun {a m r} h => ⟨_, hstep h, by simpa using hh, by
      rw [State.postLeft_nil (by simp), hleft]
      omega⟩
  cases hm : RecMutex.tryLock s.ctx.mutex p with
  | some m =>
    left
    by_cases ha : s.ctx.isAlloced = true
    · refine ⟨_, hstep (by simp only [State.postLock, hm, if_pos ha]; rfl), by simpa using hh, ?_⟩
      rw [State.postLeft_post (f := { f with pc := .loop 0, table := s.ctx.pEvtSubers }) (by simp; rfl), hleft]
      simp [PostPc.stepsLeft]
    · exact hret (by simp only [State.postLock, hm, if_neg ha]; rfl)
  | none =>
    by_cases hb : isNonBlock f.pOptions = true
    · exact .inl (hret (m := s.ctx.mutex) (by simp only [State.postLock, hm, if_pos hb]; rfl))
    · have ht := (ho hm).resolve_left hb
      exact .inr (hret (m := s.ctx.mutex) (by simp only [State.postLock, hm, if_pos ht]; rfl))

/-- The step of a post past its lock. -/
theorem postGoes_going (hr : Reach ok maxSuberNum clients s) (hN : N = maxSuberNum.toNat) (hh : s.halted = none)
    (hf : s.frames p = [.post f]) (hp : f.pc ≠ .lock) (hp' : ∀ i, f.pc ≠ .retry i)
    (hroom : ∀ i, f.pc = .push i → (s.suber i).evtQueue.hasRoom = true) :
    s.PostGoes p N .go ∨ ∃ w, s.PostGoes p N (.signal w) := by
  have hS := (threadInv_reach hr).stack p
  rw [hf] at hS
  have hfree := mutexFree_reach hr hh
  have hmax : s.ctx.maxSuberNum.toNat = N := by rw [maxSuberNum_reach hr, hN]
  have hleft := State.postLeft_post (N := N) hf
  have hstep : ∀ {a s'}, s.postStep p f [] a = some s' → Ioc.next s (p, a) = some s' := fun h => by
    simpa [Ioc.next, State.step, hh, hf] using h
  -- the post goes on with the frame `q` on top
  have hgoes : ∀ {a s'} (q : PostFrame abi), s.postStep p f [] a = some s' → s'.halted = none →
      s'.frames p = [.post q] → q.pc.stepsLeft N < f.pc.stepsLeft N → s.PostGoes p N a := fun q hs hh' hf' hlt =>
    ⟨_, hstep hs, hh', by rwa [State.postLeft_post hf', hleft]⟩
  cases hpc : f.pc with
  | lock => exact absurd hpc hp
  | retry i => exact absurd hpc (hp' i)
  | inCb i => exact absurd hpc (hS.of_post.1 i)
  | signal i =>
    right
    have hi := ((holderInv_reach hr).post p f [] i hf (by rw [hpc]; rfl)).lt
    rw [hmax] at hi
    obtain ⟨w, s₁, hw⟩ := s.exists_condSignal i
    obtain ⟨b, rfl, -⟩ := (condSignal_woken hw).eq
    refine ⟨w, hgoes { f with pc := .loop (i + 1), isCbProcEvtFound := true }
      (by simp only [State.postStep, hpc, hw]; rfl) (by simpa using hh) (by simp) ?_⟩
    simp only [hpc, PostPc.stepsLeft]
    omega
  | loop i =>
    left
    have hs : s.postStep p f [] .go = some (s.postLoop p f [] i) := by simp only [State.postStep, hpc]
    simp only [State.postLoop, hmax] at hs
    by_cases hi : i < N
    · by_cases hl : (s.suber i).args.lists (s.desc p f) = true
      · by_cases hy : s.isSync f = true
        · rw [if_pos hi, if_pos hl, if_pos hy] at hs
          refine ⟨_, hstep hs, by simpa using hh, ?_⟩
          rw [State.postLeft_cb (f := { f with pc := .inCb i, tested := f.tested ++ [s.desc p f] }) (l := []) (by simp; rfl), hleft, hpc]
          simp [PostPc.stepsLeft]
        · rw [if_pos hi, if_pos hl, if_neg hy] at hs
          exact hgoes { f with pc := .push i, tested := f.tested ++ [s.desc p f] } hs (by simpa using hh) (by simp)
            (by simp [hpc, PostPc.stepsLeft])
      · rw [if_pos hi, if_neg hl] at hs
        refine hgoes { f with pc := .loop (i + 1), tested := f.tested ++ [s.desc p f] } hs (by simpa using hh) (by simp) ?_
        simp only [hpc, PostPc.stepsLeft]
        omega
    · rw [if_neg hi] at hs
      refine ⟨_, hstep hs, by simpa using hh, ?_⟩
      rw [State.postLeft_nil (by simp), hleft]
      exact PostPc.stepsLeft_pos _
  | push i =>
    left
    have hroom := hroom i hpc
    have hpush : ∀ (s₁ : State abi) (x : Suber abi), x.evtQueue.hasRoom = true → s₁.halted = none →
        s.postStep p f [] .go = some (s₁.postPush p f [] i (s.desc p f) x) → s.PostGoes p N .go := fun s₁ x hx hh₁ hs => by
      simp only [State.postPush, if_pos hx] at hs
      exact hgoes { f with pc := .signal i, result := .success, visits := f.visits ++ [(i, .queue true)] } hs
        (by simpa using hh₁) (by simp) (by simp [hpc, PostPc.stepsLeft])
    cases hx : (s.suber i).asyncThreadID with
    | some w =>
      refine hpush s { s.suber i with mutex := some p } (by simpa using hroom) hh ?_
      simp only [State.postStep, hpc, State.postSection, Suber.lock_of_mutex (hfree i), hx]
    | none =>
      refine hpush (s.spawn i) { s.suber i with mutex := some p, asyncThreadID := some s.nextTid } (by simpa using hroom)
        (by simpa using hh) ?_
      simp only [State.postStep, hpc, State.postSection, Suber.lock_of_mutex (hfree i), hx, if_true]

/-- The post that can come to its end takes its next step. -/
theorem PostRun.Inv.goes (hI : x.Inv s₀ p maxSuberNum clients d o ans) (hh : x.state.halted = none)
    (hf : x.state.frames p ≠ []) (ho : s₀.postOutcome p d o ans ≠ none) :
    ∃ a, x.answers ans (p, a) ∧ x.state.PostGoes p maxSuberNum.toNat a := by
  obtain ⟨hA, n, due, hst, hsv⟩ := hI.underway hh
  have hr := hI.reach
  cases hst with
  | @entering f hf' hp hF hm _ =>
    have hbusy : RecMutex.tryLock x.state.ctx.mutex p = none →
        isNonBlock f.pOptions = true ∨ isTimeout f.pOptions = true := by
      intro hlock
      rw [hm] at hlock
      rw [hF.pOptions]
      by_contra hb
      simp only [not_or, Bool.not_eq_true] at hb
      simp [State.postOutcome, State.lockable, hlock, hb.1, hb.2] at ho
    rcases postGoes_lock (N := maxSuberNum.toNat) hh hf' hp hbusy with h | h
    · exact ⟨.go, trivial, h⟩
    · exact ⟨.timeout, trivial, h⟩
  | @going f hf' hp hp' hF _ _ _ =>
    have hroom : ∀ i, f.pc = .push i → (x.state.suber i).evtQueue.hasRoom = true := by
      intro i hpc
      have hi := ((holderInv_reach hr).post p f [] i hf' (by rw [hpc]; rfl)).lt
      rw [maxSuberNum_reach hr] at hi
      rw [hpc] at hsv
      exact hsv.hasRoom hi
    rcases postGoes_going hr rfl hh hf' hp hp' hroom with h | ⟨w, h⟩
    · exact ⟨.go, trivial, h⟩
    · exact ⟨.signal w, trivial, h⟩
  | @calling f c i hf' hp hi hF _ _ _ _ _ _ =>
    have hs : Ioc.next x.state (p, .ret (ans c.called)) = some ((x.state.setFrames p [.post { f with
        pc := .loop (i + 1), result := ans c.called, isCbProcEvtFound := true,
        visits := f.visits ++ [(i, .callback (ans c.called))] }]).obs (.cbRet c.sid p (ans c.called))) := by
      simp only [Ioc.next, State.step, hh, hf', State.cbReturn, hp]
      rfl
    refine ⟨.ret (ans c.called), fun c' hc' => ?_, _, hs, by simpa using hh, ?_⟩
    · rw [State.topCb, hf', Option.some.injEq] at hc'
      rw [hc']
    · rw [State.postLeft_cb hf', hp, State.postLeft_post (l := []) (by simp; rfl)]
      simp only [PostPc.stepsLeft]
      omega
  | back hf' => exact absurd hf' hf

/-- From `x` to `y` nobody but the poster `p` has moved. -/
structure PosterOnly (x y : PostRun abi) (p : Tid) (sync : Bool) : Prop where
  frames : ∀ u, u ≠ p → y.state.frames u = x.state.frames u
  holds : ∀ u i e, y.state.Holds u i e ↔ x.state.Holds u i e
  calls : sync = false → y.calls = x.calls

theorem PosterOnly.trans {sync : Bool} {z : PostRun abi} (h : PosterOnly x y p sync) (h' : PosterOnly y z p sync) :
    PosterOnly x z p sync :=
  ⟨fun u hu => (h'.frames u hu).trans (h.frames u hu), fun u i e => (h'.holds u i e).trans (h.holds u i e),
    fun hy => (h'.calls hy).trans (h.calls hy)⟩

/-- An ASYNC post runs no callback itself. -/
theorem Stands.frames_le (h : Stands s₀ x p N d o ans n) (hy : s₀.syncs o = false) :
    (x.state.frames p).length ≤ 1 := by
  cases h with
  | entering hf | going hf => simp [hf]
  | calling _ _ _ _ _ _ hy' => simp [hy] at hy'
  | back hf => simp [hf]

theorem PostRun.Inv.poster_step (hI : x.Inv s₀ p maxSuberNum clients d o ans) (hh : x.state.halted = none)
    (hf : x.state.frames p ≠ []) (hI' : (x.after p p s').Inv s₀ p maxSuberNum clients d o ans)
    (hs : Ioc.next x.state (p, a) = some s') (hh' : s'.halted = none) :
    PosterOnly x (x.after p p s') p (s₀.syncs o) := by
  have h := (next_trans hs).2
  have hT := threadInv_reach hI.reach
  refine ⟨fun u hu => h.frames_ne hu, fun u i e => (hI.underway hh).alone.poster_holds hT h, fun hy => ?_⟩
  obtain ⟨n, due, hst, -⟩ := (hI'.underway hh').served
  have hle : (s'.frames p).length ≤ 1 := hst.frames_le hy
  have hpos := List.length_pos_iff.mpr hf
  show x.calls ++ newCall x.state s' p = x.calls
  rw [newCall_eq_nil (by omega), List.append_nil]

/-- **The post comes to its end**, if nobody else moves. -/
theorem PostRun.Inv.returns (hN₀ : s₀.ctx.maxSuberNum = maxSuberNum) (hy₀ : s₀.ctx.isSyncMode = false)
    (ho : s₀.postOutcome p d o ans ≠ none) (hI : x.Inv s₀ p maxSuberNum clients d o ans)
    (hh : x.state.halted = none) :
    ∃ y, Runs.ReachUnder (PostRun.next p) (PostRun.answers ans) x y ∧ y.state.halted = none ∧ y.state.frames p = [] ∧
      PosterOnly x y p (s₀.syncs o) := by
  -- induction on the steps that the post has still to take
  obtain ⟨k, hk⟩ : ∃ k, x.state.postLeft p maxSuberNum.toNat = k := ⟨_, rfl⟩
  induction k using Nat.strong_induction_on generalizing x with
  | _ k ih =>
    by_cases hf : x.state.frames p = []
    · exact ⟨x, .refl, hh, hf, fun _ _ => rfl, fun _ _ _ => .rfl, fun _ => rfl⟩
    · obtain ⟨a, hok, s', hs, hh', hlt⟩ := hI.goes hh hf ho
      have hn : x.next p (p, a) = some (x.after p p s') := by
        rw [PostRun.next, hs]
        rfl
      have hI' := hI.next hN₀ hy₀ hok hn
      obtain ⟨y, hr, hyh, hyf, hy⟩ := ih _ (hk ▸ hlt) hI' hh' rfl
      exact ⟨y, (Runs.ReachUnder.refl.tail _ hok hn).trans hr, hyh, hyf,
        (hI.poster_step hh hf hI' hs hh').trans hy⟩

/-! ### The events are delivered -/

theorem next_async {pc : AsyncPc abi} (hh : s.halted = none) (hf : s.frames v = []) (hb : s.base v = .async i g pc) :
    Ioc.next s (v, a) = s.asyncStep v i g pc a := by
  simp only [Ioc.next, State.step, hh, hf, hb]
  rfl

/-- From `x` to `y` only the thread `v` of slot `i` has moved, to the program point `pc` of its loop. -/
structure Headed (x y : PostRun abi) (v : Tid) (i g : ℕ) (pc : AsyncPc abi) : Prop where
  running : y.state.halted = none
  ctx : y.state.ctx = x.state.ctx
  frames : y.state.frames = x.state.frames
  calls : y.calls = x.calls
  base : y.state.base = Function.update x.state.base v (.async i g pc)

/-- One more step of the thread. -/
theorem Headed.step {pc : AsyncPc abi} (h : Headed x y v i g pc) (hf : x.state.frames v = []) (pc' : AsyncPc abi)
    (hok : y.answers ans (v, a)) (hs : y.state.asyncStep v i g pc a = some s') (hh : s'.halted = none)
    (hc : s'.ctx = y.state.ctx) (hf' : s'.frames = y.state.frames)
    (hb : s'.base = Function.update y.state.base v (.async i g pc')) :
    ∃ z, Runs.ReachUnder (PostRun.next p) (PostRun.answers ans) y z ∧ Headed x z v i g pc' := by
  have hn : Ioc.next y.state (v, a) = some s' := by
    rw [next_async h.running (by rw [h.frames, hf]) (by rw [h.base, Function.update_self]), hs]
  refine ⟨y.after p v s', Runs.ReachUnder.refl.tail (v, a) hok (by rw [PostRun.next, hn]; rfl), hh, hc.trans h.ctx,
    hf'.trans h.frames, ?_, ?_⟩
  · show y.calls ++ newCall y.state s' v = x.calls
    rw [newCall_eq_nil (by rw [hf']), List.append_nil, h.calls]
  · show s'.base = _
    rw [hb, h.base, Function.update_idem]

/-- A thread that rests comes to the head of its loop. -/
theorem Headed.to_head {pc : AsyncPc abi} (h : Headed x y v i g pc) (hf : x.state.frames v = [])
    (hr : (Base.async i g pc).rests = true) (hfree : (x.state.suber i).mutex = none)
    (hcached : (x.state.suber i).evtCached.pending = 0) :
    ∃ z pc', Runs.ReachUnder (PostRun.next p) (PostRun.answers ans) y z ∧ Headed x z v i g pc' ∧
      (pc' = .top ∨ pc' = .woken) := by
  have hslot : ∀ {y pc}, Headed x y v i g pc → y.state.suber i = x.state.suber i := fun h => by
    rw [State.suber, h.ctx]
  have hchk : ∀ {y e}, Headed x y v i g (.drainChk e) →
      ∃ z pc', Runs.ReachUnder (PostRun.next p) (PostRun.answers ans) y z ∧ Headed x z v i g pc' ∧
        (pc' = .top ∨ pc' = .woken) := fun {y e} h => by
    have hs : y.state.asyncStep v i g (.drainChk e) .go = some (y.state.setBase v (.async i g .top)) := by
      simp [State.asyncStep, State.drainNext, hslot h, hcached]
    obtain ⟨z, hz, hh⟩ := h.step hf .top (a := .go) trivial hs h.running rfl rfl rfl
    exact ⟨z, .top, hz, hh, .inl rfl⟩
  cases pc with
  | call d | inCb d | replay d => simp [Base.rests] at hr
  | drained d r => simp [Base.rests] at hr
  | top => exact ⟨y, .top, .refl, h, .inl rfl⟩
  | woken => exact ⟨y, .woken, .refl, h, .inr rfl⟩
  | start =>
    obtain ⟨z, hz, hh⟩ := h.step hf .top (a := .go) trivial rfl h.running rfl rfl rfl
    exact ⟨z, .top, hz, hh, .inl rfl⟩
  | waiting =>
    obtain ⟨z, hz, hh⟩ := h.step hf .woken (a := .wake) trivial rfl h.running rfl rfl rfl
    exact ⟨z, .woken, hz, hh, .inr rfl⟩
  | drainChk e => exact hchk h
  | drain =>
    have hfree' : (y.state.suber i).mutex = none := by rw [hslot h, hfree]
    have hs : y.state.asyncStep v i g .drain .go =
        some (y.state.setBase v (.async i g (.drainChk (y.state.suber i).evtQueue.isEmpty))) := by
      simp only [State.asyncStep, Suber.lock_of_mutex hfree', Suber.unlock_of_mutex hfree', State.setSuber_self]
    obtain ⟨z, hz, hh⟩ := h.step hf (.drainChk _) (a := .go) trivial hs h.running rfl rfl rfl
    obtain ⟨z', pc', hz', hh'⟩ := hchk hh
    exact ⟨z', pc', hz.trans hz', hh'⟩

/-- Every thread is between two callbacks. -/
structure PostRun.Resting (x : PostRun abi) : Prop where
  running : x.state.halted = none
  frames : ∀ u, x.state.frames u = []
  holds : ∀ u i e, ¬ x.state.Holds u i e

theorem PostRun.Resting.rests (hT : ThreadInv x.state) (hA : Alone s₀ x.state p) (hR : x.Resting) (u : Tid) :
    (x.state.base u).rests = true := by
  have hS := hT.stack u
  rw [hR.frames u] at hS
  rcases hS.of_nil with hb | hb | ⟨i, g, pc, hb, hpc⟩
  · rw [hb]
    rfl
  · rw [hb]
    rfl
  · rw [hb]
    cases pc with
    | call e => exact absurd ⟨g, hb⟩ (hR.holds u i e)
    | drained e r => exact absurd hb (hA.drained u i g e r)
    | inCb e | replay e => exact hpc.elim
    | _ => rfl

/-- The thread of a slot runs, when nobody is in a call. -/
theorem runsOn_of_thread (hr : Reach ok maxSuberNum clients s) (hf : ∀ u, s.frames u = [])
    (hx : (s.suber i).asyncThreadID = some v) : s.RunsOn v i := by
  have hth := (slotInv_reach hr).thread i v hx
  refine hth.base.resolve_left fun hgone => ?_
  have hflag := (goneInv_reach hr i v hx hgone).1
  obtain ⟨u, f, rest, hfu, -⟩ := flagInv_reach hr i hflag hth.occupied
  simp [hf u] at hfu

/-- The thread at the head of its loop takes an event. -/
theorem next_take {pc : AsyncPc abi} (hh : s.halted = none) (hf : s.frames v = []) (hb : s.base v = .async i g pc)
    (hpc : pc = .top ∨ pc = .woken) (hfree : (s.suber i).mutex = none) (he : (s.suber i).evtQueue.isEmpty = false) :
    Ioc.next s (v, .go) = some ((s.setSuber i { s.suber i with evtQueue := (s.suber i).evtQueue.pop }).setBase v
      (.async i g (.call (s.suber i).evtQueue.front))) := by
  have htake := consume_of_mutex (t := v) (g := g) hfree
  simp only [he, Bool.and_false, Bool.false_eq_true, if_false] at htake
  rw [next_async hh hf hb]
  rcases hpc with rfl | rfl <;> exact htake

/-- It calls the callback with it. -/
theorem next_asyncCall (hh : s.halted = none) (hf : s.frames v = []) (hb : s.base v = .async i g (.call d)) :
    Ioc.next s (v, .go) = some (s.asyncCall v i g d) := by
  rw [next_async hh hf hb]
  rfl

/-- The callback returns to the loop. -/
theorem next_asyncRet {c : CbFrame abi} (hh : s.halted = none) (hf : s.frames v = [.cb c])
    (hb : s.base v = .async i g (.inCb d)) : Ioc.next s (v, .ret r) =
      some (((s.setFrames v []).setBase v (.async i g .drain)).obs (.cbRet c.sid v r)) := by
  simp only [Ioc.next, State.step, hh, hf, State.cbReturn, hb]
  rfl

/-- The thread at the head of its loop takes the event, calls the callback, and goes on to the drain loop. -/
theorem Headed.deliver {pc : AsyncPc abi} {z : PostRun abi} (h : Headed x z v i g pc) (hpc : pc = .top ∨ pc = .woken)
    (hR : x.Resting) (hfree : (x.state.suber i).mutex = none) (hocc : (x.state.suber i).args.cbProcEvtF ≠ NULL)
    (hq : (x.state.suber i).evtQueue.contents = [d]) :
    ∃ y, Runs.ReachUnder (PostRun.next p) (PostRun.answers ans) z y ∧ y.Resting ∧
      y.calls = x.calls ++ [x.state.calledAt d i] ∧ (y.state.suber i).evtQueue.contents = [] ∧
      ∀ j, j ≠ i → y.state.suber j = x.state.suber j := by
  have hslot : ∀ j, z.state.suber j = x.state.suber j := fun j => by rw [State.suber, h.ctx]
  have hf : z.state.frames v = [] := by rw [h.frames, hR.frames]
  have hb : z.state.base v = .async i g pc := by rw [h.base, Function.update_self]
  have hne : (x.state.suber i).evtQueue.pending ≠ 0 := fun h0 => by
    rw [← WrapRing.isEmpty_iff_pending, WrapRing.isEmpty_iff_contents, hq] at h0
    simp at h0
  have hcons := WrapRing.contents_pop _ hne
  rw [hq, List.cons.injEq] at hcons
  have he : (z.state.suber i).evtQueue.isEmpty = false := by
    rw [hslot, ← Bool.not_eq_true, WrapRing.isEmpty_iff_pending]
    exact hne
  -- it takes the event
  obtain ⟨s₁, h₁, hh₁, hf₁, hb₁, hc₁⟩ : ∃ s₁, Ioc.next z.state (v, .go) = some s₁ ∧ s₁.halted = none ∧
      s₁.frames = z.state.frames ∧ s₁.base = Function.update z.state.base v (.async i g (.call d)) ∧
      s₁.ctx = z.state.ctx.setSuber i { x.state.suber i with evtQueue := (x.state.suber i).evtQueue.pop } := by
    have htake := next_take h.running hf hb hpc (by rw [hslot, hfree]) he
    rw [hslot, ← hcons.1] at htake
    exact ⟨_, htake, h.running, rfl, rfl, rfl⟩
  have hfv₁ : s₁.frames v = [] := by rw [hf₁, hf]
  have hbv₁ : s₁.base v = .async i g (.call d) := by rw [hb₁, Function.update_self]
  have hargs₁ : (s₁.suber i).args = (x.state.suber i).args := by simp [State.suber, hc₁]
  -- it calls the callback
  obtain ⟨s₂, c, h₂, hc, hh₂, hf₂, hb₂, hc₂⟩ : ∃ s₂ c, Ioc.next s₁ (v, .go) = some s₂ ∧
      CbFrame.called c = x.state.calledAt d i ∧ s₂.halted = none ∧ s₂.frames = Function.update s₁.frames v [.cb c] ∧
      s₂.base = Function.update s₁.base v (.async i g (.inCb d)) ∧ s₂.ctx = s₁.ctx := by
    have hcall := next_asyncCall hh₁ hfv₁ hbv₁
    rw [State.asyncCall, hargs₁, if_neg hocc] at hcall
    exact ⟨_, _, hcall, rfl, hh₁, rfl, rfl, rfl⟩
  -- the callback returns
  obtain ⟨s₃, h₃, hh₃, hf₃, hb₃, hc₃⟩ : ∃ s₃, Ioc.next s₂ (v, .ret (ans c.called)) = some s₃ ∧ s₃.halted = none ∧
      s₃.frames = Function.update s₂.frames v [] ∧ s₃.base = Function.update s₂.base v (.async i g .drain) ∧
      s₃.ctx = s₂.ctx := by
    have hfv₂ : s₂.frames v = [.cb c] := by rw [hf₂, Function.update_self]
    have hbv₂ : s₂.base v = .async i g (.inCb d) := by rw [hb₂, Function.update_self]
    exact ⟨_, next_asyncRet hh₂ hfv₂ hbv₂, hh₂, rfl, rfl, rfl⟩
  refine ⟨((z.after p v s₁).after p v s₂).after p v s₃, ?_, ⟨hh₃, fun u => ?_, fun u j e => ?_⟩, ?_, ?_, fun j hj => ?_⟩
  · refine ((Runs.ReachUnder.refl.tail (v, .go) trivial (by rw [PostRun.next, h₁]; rfl)).tail (v, .go) trivial
      (by rw [PostRun.next]; exact congrArg _ h₂)).tail (v, .ret (ans c.called)) (fun c' hc' => ?_)
      (by rw [PostRun.next]; exact congrArg _ h₃)
    have htop : s₂.topCb v = some c := by rw [State.topCb, hf₂, Function.update_self]
    rw [Option.some.inj (hc'.symm.trans htop)]
  · show s₃.frames u = []
    rw [hf₃, hf₂, hf₁, Function.update_idem, h.frames]
    by_cases hu : u = v
    · rw [hu, Function.update_self]
    · rw [Function.update_of_ne hu, hR.frames]
  · rintro ⟨k, hk⟩
    have hbase : s₃.base = Function.update x.state.base v (.async i g .drain) := by
      rw [hb₃, hb₂, hb₁, h.base, Function.update_idem, Function.update_idem, Function.update_idem]
    change s₃.base u = _ at hk
    rw [hbase] at hk
    by_cases hu : u = v
    · simp [hu] at hk
    · rw [Function.update_of_ne hu] at hk
      exact hR.holds u j e ⟨k, hk⟩
  · show z.calls ++ newCall z.state s₁ v ++ newCall s₁ s₂ v ++ newCall s₂ s₃ v = _
    rw [newCall_eq_nil (by rw [hf₁]), newCall_cb (by rw [hf₂, Function.update_self]) (by rw [hfv₁]),
      newCall_eq_nil (by rw [hf₃, Function.update_self]; exact Nat.zero_le _), h.calls, hc, List.append_nil,
      List.append_nil]
  · show (s₃.suber i).evtQueue.contents = []
    simpa [State.suber, hc₃, hc₂, hc₁] using hcons.2.symm
  · show s₃.suber j = x.state.suber j
    simpa [State.suber, hc₃, hc₂, hc₁, hj] using hslot j

/-- An event that is queued is delivered. -/
theorem PostRun.Inv.deliver (hI : x.Inv s₀ p maxSuberNum clients d o ans) (hR : x.Resting) (hi : i < maxSuberNum.toNat)
    (hq : (x.state.suber i).evtQueue.contents ≠ []) :
    ∃ y, Runs.ReachUnder (PostRun.next p) (PostRun.answers ans) x y ∧ y.Resting ∧
      y.calls = x.calls ++ [s₀.calledAt d i] ∧ (y.state.suber i).evtQueue.contents = [] ∧
      ∀ j, j ≠ i → y.state.suber j = x.state.suber j := by
  obtain ⟨hA, n, due, hst, hsv⟩ := hI.underway hR.running
  have hr := hI.reach
  have hmax := maxSuberNum_reach hr
  have hfl := hsv.flight i hi
  generalize hdue : decide (i ∈ due) = b at hfl
  cases hfl with
  | landed h | inHand h => exact absurd h hq
  | @queued v hd hx =>
    obtain ⟨g, pc, hb⟩ := runsOn_of_thread hr hR.frames hx
    have hrest := hR.rests (threadInv_reach hr) hA v
    rw [hb] at hrest
    have hfree := mutexFree_reach hr hR.running i
    have hl := (State.mem_matching.mp (hsv.due_sublist.2 i (of_decide_eq_true hdue))).2
    rw [← hA.args] at hl
    have h₀ : Headed x x v i g pc := ⟨hR.running, rfl, rfl, rfl, by rw [← hb, Function.update_eq_self]⟩
    obtain ⟨z, pc', hz, hh, hpc'⟩ := h₀.to_head (p := p) (hR.frames v) hrest hfree (hA.cached i (by rwa [hmax]))
    obtain ⟨y, hy, hRy, hcalls, hnil, hother⟩ :=
      hh.deliver hpc' hR hfree (EvtSubArgs.cb_ne_null_of_lists hl) hd
    exact ⟨y, hz.trans hy, hRy, by rw [hcalls, hA.calledAt], hnil, hother⟩

theorem PostRun.Inv.trans (hI : x.Inv s₀ p maxSuberNum clients d o ans) (hN₀ : s₀.ctx.maxSuberNum = maxSuberNum)
    (hy₀ : s₀.ctx.isSyncMode = false) (h : Runs.ReachUnder (PostRun.next p) (PostRun.answers ans) x y) :
    y.Inv s₀ p maxSuberNum clients d o ans :=
  h.invariant hI fun _ _ _ _ hI hok hn => hI.next hN₀ hy₀ hok hn

/-- A result stays. -/
theorem PostRun.result_eq (h : Runs.ReachUnder (PostRun.next p) (PostRun.answers ans) x y) (hr : x.result = some r) :
    y.result = some r :=
  h.invariant (P := fun y => y.result = some r) hr fun _ _ _ _ hres _ hn => by
    obtain ⟨s', -, rfl⟩ := Option.map_eq_some_iff.mp hn
    show Option.or _ _ = _
    rw [hres]
    rfl

/-- Every event that is queued is delivered, in any order. -/
theorem deliver_all (hN₀ : s₀.ctx.maxSuberNum = maxSuberNum) (hy₀ : s₀.ctx.isSyncMode = false) (l : List ℕ)
    (hnd : l.Nodup) (hl : ∀ i ∈ l, i < maxSuberNum.toNat) (hI : x.Inv s₀ p maxSuberNum clients d o ans)
    (hR : x.Resting) (hq : ∀ i, i < maxSuberNum.toNat → ((x.state.suber i).evtQueue.contents ≠ [] ↔ i ∈ l)) :
    ∃ y, Runs.ReachUnder (PostRun.next p) (PostRun.answers ans) x y ∧ y.state.Quiet ∧
      y.calls = x.calls ++ l.map (s₀.calledAt d) := by
  induction l generalizing x with
  | nil =>
    have hA := (hI.underway hR.running).alone
    have hmax := maxSuberNum_reach hI.reach
    refine ⟨x, .refl, ⟨hR.running, fun u _ => ⟨by simp [hR.frames], hR.rests (threadInv_reach hI.reach) hA u⟩,
      fun i hi => ⟨?_, hA.cached i hi⟩⟩, by simp⟩
    rw [hmax] at hi
    rw [WrapRing.isEmpty_iff_contents]
    by_contra hne
    exact absurd ((hq i hi).mp hne) List.not_mem_nil
  | cons i l ih =>
    rw [List.nodup_cons] at hnd
    have hi := hl i List.mem_cons_self
    obtain ⟨y, hy, hRy, hcalls, hnil, hother⟩ := hI.deliver hR hi ((hq i hi).mpr List.mem_cons_self)
    obtain ⟨z, hz, hquiet, hcalls'⟩ := ih hnd.2 (fun j hj => hl j (List.mem_cons_of_mem i hj)) (hI.trans hN₀ hy₀ hy) hRy
      fun j hj => by
        by_cases hji : j = i
        · rw [hji, hnil]
          exact iff_of_false (fun h => h rfl) hnd.1
        · rw [hother j hji, hq j hj, List.mem_cons, or_iff_right hji]
    exact ⟨z, hy.trans hz, hquiet, by rw [hcalls', hcalls, List.append_assoc]; rfl⟩

end PlatIF.Ioc
