import PlatIF.Ioc.SyncFan

/-!
# The SYNC option

A call of `postEVT` with the SYNC option that returns `SUCCESS` has run the callbacks on the calling thread and has put
no copy of the event anywhere.  It does so exactly if it obtained the context mutex and none of its callbacks made the
event another one for a subscription that was still to come: an async thread that finds the mutex held by another thread
puts the event into the cache of its slot instead, whatever the option says, and that is a `SUCCESS` too
(`sync_honoured_iff`, `sync_cached`).
-/

namespace PlatIF.Ioc

variable {abi : Abi} {s s' s₀ : State abi} {t : Tid} {a : Act abi} {f f₀ : PostFrame abi} {rest : List (Frame abi)}
  {maxSuberNum : ULong abi} {clients : ℕ} {ok : State abi → Tid × Act abi → Prop}

/-- The step puts a copy of an event into `EvtDescQueue` or `EvtDescCachedQueue` of a slot. -/
def State.Puts (s s' : State abi) : Prop :=
  ∃ j, (s'.suber j).evtQueue.postCnt ≠ (s.suber j).evtQueue.postCnt ∨
    (s'.suber j).evtCached.postCnt ≠ (s.suber j).evtCached.postCnt

/-- The call that returns by the step to `s'` has called the subscriptions that list its event and stayed live, and has
put no copy of the event anywhere. -/
structure CallRun.Honoured (x : CallRun abi) (s₀ s' : State abi) (t : Tid) (d : EvtDesc abi) : Prop where
  ran : ∀ j g, x.Stays j g → (s₀.suber j).args.lists d = true →
    ∃ p ∈ x.calls t, p.2.sid = g ∧ p.2.Serves p.1 p.2.pEvtDesc
  noCopy : ∀ p ∈ x.own ++ [(x.state, s')], ¬ p.1.Puts p.2

theorem State.not_puts (h : s'.ctx.pEvtSubers = s.ctx.pEvtSubers) : ¬ s.Puts s' := by
  rintro ⟨j, hj⟩
  simp [State.suber, h] at hj

/-- A push into a cache shows in its counter. -/
theorem State.puts_of_cached {i : ℕ} (h : s'.ctx.pEvtSubers = Function.update s.ctx.pEvtSubers i
    { s.suber i with evtCached := (s.suber i).evtCached.push d }) : s.Puts s' := by
  refine ⟨i, .inr ?_⟩
  simpa [State.suber, h] using abi.one_ne_zero

/-- A call that returns `SUCCESS` from its lock found the context mutex held by another thread. -/
theorem Trans.busy_of_success (h : Trans s t a s') (hret : Returns s s' t (.post f) .success) (hp : f.pc = .lock) :
    RecMutex.tryLock s.ctx.mutex t = none := by
  obtain ⟨hf, -, hlog⟩ := hret
  obtain ⟨rest, hrest⟩ : ∃ rest, s'.frames t = rest := ⟨_, rfl⟩
  rw [hrest] at hf
  cases h
  case postCache hm _ _ _ _ => exact hm
  case call =>
    have hlen := congrArg List.length hrest
    simp only [State.setFrames, Function.update_self, hf, List.length_cons] at hlen
    omega
  case postSignal hw | postRetrySignal hw =>
    obtain ⟨b, rfl, -⟩ := hw.eq
    simp_all
  all_goals simp_all

theorem CbFrame.Serves.self {c : CbFrame abi} {d : EvtDesc abi} (h : c.Serves s d) : c.Serves s c.pEvtDesc :=
  h.pEvtDesc ▸ h

/-- **A call with the SYNC option that returns `SUCCESS` has done what the option says exactly if no other thread held
the context mutex when it took its last step** (the step that found the mutex taken, or the return of a fan-out that
holds the mutex itself) **and each subscription that listed the event lists what the descriptor was at its turn.** -/
theorem sync_honoured_iff (h₀ : Reach ok maxSuberNum clients s₀) (hf₀ : s₀.frames t = .post f₀ :: rest)
    (hp₀ : f₀.pc = .lock) (hy : isSyncMode f₀.pOptions = true) {x : CallRun abi}
    (hx : Runs.ReachUnder (CallRun.next t rest.length) (fun _ _ => True) (.start s₀) x)
    (hn : next x.state (t, a) = some s') (hret : Returns x.state s' t (.post f) .success) (hrest : s'.frames t = rest) :
    x.Honoured s₀ s' t f₀.pEvtDesc ↔ RecMutex.tryLock x.state.ctx.mutex t ≠ none ∧
      ∀ j g, x.Stays j g → (s₀.suber j).args.lists f₀.pEvtDesc = true →
        (s₀.suber j).args.lists (f.atTurn j) = true := by
  have hsync : s₀.isSync f₀ = true := by simp [State.isSync, hy]
  have hI : x.FanInv false maxSuberNum clients s₀ t f₀ rest :=
    fanInv_run (fun _ _ _ h => by simp at h) h₀ hf₀ hp₀ hsync hx
  have hr := hI.seen.reach _ hI.seen.now
  have h := (next_trans hn).2
  have htop := hret.top
  constructor
  · intro hhon
    suffices hbusy : RecMutex.tryLock x.state.ctx.mutex t ≠ none by
      refine ⟨hbusy, fun j g hst hl => ?_⟩
      rcases h.post_returns hret with ⟨hp, -⟩ | ⟨⟨i, hp, hend⟩, -⟩
      · exact absurd (h.busy_of_success hret hp) hbusy
      · -- what the call called in the slot was listed there
        obtain ⟨hF, -, -⟩ := hI.atEnd (hrest ▸ htop) hp hend
        obtain ⟨p, hm, hg, -⟩ := hhon.ran j g hst hl
        obtain ⟨hseen, hserve⟩ := hF.serves p hm
        have hlists := hserve.lists
        rwa [(hI.sid_iff hF hst hm).mp hg, hI.seen.args j g hst _ hseen] at hlists
    intro hbusy
    have hlast : ¬ x.state.Puts s' := hhon.noCopy (x.state, s') (by simp)
    cases h.postReturn hret with
    | cached _ _ _ hc _ => exact hlast (State.puts_of_cached hc)
    | notFound _ _ hr' | busy _ _ hr' | cacheFull _ _ _ hr' => simp at hr'
    | ended hp =>
      -- the call holds the mutex itself
      obtain ⟨u, hu, hpos⟩ := RecMutex.tryLock_eq_none.mp hbusy
      have hself := (lockInv_reach hr).post_holder htop (by simp [hp])
      exact hu (RecMutex.held_unique hpos hself)
  · rintro ⟨hfree, hkeep⟩
    rcases h.post_returns hret with ⟨hp, -⟩ | ⟨⟨i, hp, hend⟩, -, hc, -⟩
    · exact absurd (h.busy_of_success hret hp) hfree
    · obtain ⟨hF, -, hdone⟩ := hI.atEnd (hrest ▸ htop) hp hend
      refine ⟨fun j g hst hl => ?_, fun p hm => ?_⟩
      · obtain ⟨p, hfilter, -⟩ := hI.once hF hdone hst (hkeep j g hst hl)
        obtain ⟨hm, hg⟩ := List.mem_filter.mp (hfilter ▸ List.mem_singleton_self p)
        exact ⟨p, hm, by simpa using hg, (hF.serves p hm).2.self⟩
      · rcases List.mem_append.mp hm with hm | hm
        · exact State.not_puts (hI.still p hm)
        · rw [List.mem_singleton.mp hm]
          exact State.not_puts hc

/-! ### Runs -/

/-- The call of `postEVT` on top of the stack of `t`. -/
def State.topPost (s : State abi) (t : Tid) : Option (PostFrame abi) :=
  match s.frames t with
  | .post f :: _ => some f
  | _ => none

theorem State.frames_of_topPost (h : s.topPost t = some f) : s.frames t = .post f :: (s.frames t).tail := by
  unfold State.topPost at h
  split at h
  · rename_i hf
    simp only [Option.some.injEq] at h
    rw [hf, h]
    rfl
  · simp at h

/-- A step that takes a frame off the stack returns from the call on top. -/
theorem Trans.returns_of_length {r : TosResult} (h : Trans s t a s') (hf : s.frames t = .post f :: rest)
    (hlen : (s'.frames t).length = rest.length) (hlog : s'.log.getLast? = some (.ret t r)) :
    Returns s s' t (.post f) r ∧ s'.frames t = rest := by
  have hrest := h.frames_popped hf rfl hlen
  exact ⟨⟨hrest ▸ hf, rfl, hlog⟩, hrest⟩

/-- A fan-out of thread `0` has pushed its event for thread `1`, which takes it; the callback posts with the SYNC
option while thread `0` still holds the context mutex. -/
def syncInAsyncCb : List (Tid × Act lp64) :=
  [(0, .call (.subEVT ⟨1, 1, some [7]⟩)), (0, .go), (0, .call (.postEVT (.ofID lp64 7) none)), (0, .go), (0, .go),
    (0, .go), (0, .signal none), (1, .go), (1, .go), (1, .go),
    (1, .call (.postEVT (.ofID lp64 7) (some ⟨optIDSyncMode, 0⟩)))]

/-- The first callback of the fan-out makes the event another one and returns. -/
def writingCb : List (Tid × Act lp64) :=
  ([(0, .go), (0, .go), (0, .write (.ofID lp64 8)), (0, .ret .success)] : List (Tid × Act lp64)) ++
    List.replicate 31 (0, .go)

/-- A SYNC post of a callback of an async thread puts the event into the cache and returns `SUCCESS`; the subscription
that lists the event is not called.  Nor is one that comes after a callback that writes another `EvtID`, though the post
returns `SUCCESS` and holds the mutex. -/
theorem sync_cached :
    (∃ (s s' : State lp64) (f : PostFrame lp64) (rest : List (Frame lp64)),
      Reach (fun _ _ => True) (initMaxSuberNum lp64) 1 s ∧ s.frames 1 = .post f :: rest ∧ f.pc = .lock ∧
        isSyncMode f.pOptions = true ∧ next s (1, .go) = some s' ∧ Returns s s' 1 (.post f) .success ∧
        s'.frames 1 = rest ∧ s.Live 0 1 ∧ (s.suber 0).args.lists f.pEvtDesc = true ∧ (CallRun.start s).calls 1 = [] ∧
        s.Puts s' ∧ ¬ (CallRun.start s).Honoured s s' 1 f.pEvtDesc) ∧
    ∃ (s₀ : State lp64) (x : CallRun lp64) (s' : State lp64) (f f' : PostFrame lp64),
      Reach (fun _ _ => True) (initMaxSuberNum lp64) 1 s₀ ∧ s₀.frames 0 = [.post f] ∧ f.pc = .lock ∧
        isSyncMode f.pOptions = true ∧ Runs.ReachUnder (CallRun.next 0 0) (fun _ _ => True) (.start s₀) x ∧
        next x.state (0, .go) = some s' ∧ Returns x.state s' 0 (.post f') .success ∧ x.Stays 1 2 ∧
        (s₀.suber 1).args.lists f.pEvtDesc = true ∧ ((x.calls 0).map fun p => p.2.sid) = [1] ∧
        ¬ x.Honoured s₀ s' 0 f.pEvtDesc := by
  constructor
  · obtain ⟨s, hr, hs⟩ := reach_of_run (fun _ _ => True) (initMaxSuberNum lp64) 1 syncInAsyncCb
      (fun s : State lp64 => (s.topPost 1).any fun f : PostFrame lp64 => (next s (1, .go)).any fun s' : State lp64 =>
        decide (f.pc = .lock) && isSyncMode f.pOptions && decide ((s.suber 0).occupied) && s.sid 0 == 1 &&
        (s.suber 0).args.lists f.pEvtDesc && (s'.frames 1).length == (s.frames 1).tail.length &&
        s'.log.getLast? == some (.ret 1 .success) &&
        (s'.suber 0).evtCached.postCnt != (s.suber 0).evtCached.postCnt) (by decide +kernel)
    simp only [Option.any_eq_true, Bool.and_eq_true, decide_eq_true_eq, beq_iff_eq, bne_iff_ne] at hs
    obtain ⟨f, hf, s', hn, ⟨⟨⟨⟨⟨⟨hp, hy⟩, ho⟩, hsid⟩, hl⟩, hlen⟩, hlog⟩, hput⟩ := hs
    have hf := State.frames_of_topPost hf
    obtain ⟨hret, hrest⟩ := (next_trans hn).2.returns_of_length hf hlen hlog
    have hputs : s.Puts s' := ⟨0, .inr hput⟩
    exact ⟨s, s', f, _, hr, hf, hp, hy, hn, hret, hrest, ⟨ho, hsid⟩, hl, rfl, hputs,
      fun h => h.noCopy (s, s') (by simp [CallRun.start]) hputs⟩
  · obtain ⟨s₀, hr₀, hs₀⟩ := reach_of_run (fun _ _ => True) (initMaxSuberNum lp64) 1 twoSubers
      (fun s : State lp64 => (s.onlyPost 0).any fun f : PostFrame lp64 => decide (f.pc = .lock) &&
        isSyncMode f.pOptions && (s.suber 1).args.lists f.pEvtDesc &&
        (Runs.runUnder (CallRun.next 0 0) (fun _ _ => True) writingCb (.start s)).any
          fun x : CallRun lp64 => (x.state.onlyPost 0).any fun _ : PostFrame lp64 => (next x.state (0, .go)).any
            fun s' : State lp64 => s'.returned 0 .success &&
              x.seen.all (fun s : State lp64 => decide ((s.suber 1).occupied) && s.sid 1 == 2) &&
              decide (((x.calls 0).map fun p => p.2.sid) = [1])) (by decide +kernel)
    simp only [Option.any_eq_true, State.onlyPost_eq_some, Bool.and_eq_true, decide_eq_true_eq, List.all_eq_true,
      beq_iff_eq] at hs₀
    obtain ⟨f, hf, ⟨⟨hp, hy⟩, hl⟩, x, hx, f', hf', s', hn, ⟨hret, hst⟩, hcalls⟩ := hs₀
    refine ⟨s₀, x, s', f, f', hr₀, hf, hp, hy, Runs.runUnder_reach hx, hn, returns_of_returned hf' rfl hret, hst, hl,
      hcalls, fun hhon => ?_⟩
    obtain ⟨p, hm, hg, -⟩ := hhon.ran 1 2 hst hl
    have hmem : p.2.sid ∈ (x.calls 0).map fun p => p.2.sid := List.mem_map_of_mem (f := fun p => p.2.sid) hm
    simp [hcalls, hg] at hmem

/-- A SYNC post of an ordinary thread calls both subscriptions. -/
theorem sync_honoured_first :
    ∃ (s₀ : State lp64) (x : CallRun lp64) (s' : State lp64) (f : PostFrame lp64),
      ((x.calls 0).map fun p => p.2.suberIdx) = [0, 1] ∧ x.Honoured s₀ s' 0 f.pEvtDesc := by
  obtain ⟨s₀, hr₀, hs₀⟩ := reach_of_run (fun _ _ => True) (initMaxSuberNum lp64) 1 twoSubers
    (fun s : State lp64 => (s.onlyPost 0).any fun f : PostFrame lp64 => decide (f.pc = .lock) &&
      isSyncMode f.pOptions &&
      (Runs.runUnder (CallRun.next 0 0) (fun _ _ => True)
        (([(0, .go), (0, .go), (0, .ret .success), (0, .go), (0, .ret .success)] : List (Tid × Act lp64)) ++
          List.replicate 30 (0, .go)) (.start s)).any
        fun x : CallRun lp64 => (x.state.onlyPost 0).any fun f' : PostFrame lp64 => (next x.state (0, .go)).any
          fun s' : State lp64 => s'.returned 0 .success && (RecMutex.tryLock x.state.ctx.mutex 0).isSome &&
            decide (∀ e ∈ f'.tested, e = f.pEvtDesc) && decide (f'.pEvtDesc = f.pEvtDesc) &&
            decide (((x.calls 0).map fun p => p.2.suberIdx) = [0, 1])) (by decide +kernel)
  simp only [Option.any_eq_true, State.onlyPost_eq_some, Bool.and_eq_true, decide_eq_true_eq] at hs₀
  obtain ⟨f, hf, ⟨hp, hy⟩, x, hx, f', hf', s', hn, ⟨⟨⟨hret, hfree⟩, ht⟩, hd⟩, hcalls⟩ := hs₀
  have hret' := returns_of_returned hf' rfl hret
  have hrest : s'.frames 0 = [] := (List.cons.inj (hf'.symm.trans hret'.top)).2.symm
  have hfree : RecMutex.tryLock x.state.ctx.mutex 0 ≠ none := Option.isSome_iff_ne_none.mp hfree
  have hturn : ∀ j, f'.atTurn j = f.pEvtDesc := fun j => by
    rw [PostFrame.atTurn, List.getD_eq_getElem?_getD]
    cases hj : f'.tested[j]? with
    | none => exact hd
    | some e => exact ht e (List.mem_of_getElem? hj)
  exact ⟨s₀, x, s', f, hcalls, (sync_honoured_iff hr₀ hf hp hy (Runs.runUnder_reach hx) hn hret' hrest).mpr
    ⟨hfree, fun j _ _ hl => (hturn j).symm ▸ hl⟩⟩

end PlatIF.Ioc
