import PlatIF.Ioc.Watch
import PlatIF.Ioc.SlotOwner

/-!
# Cached posts are kept until they are retired

While no callback unsubscribes its own subscription, the cache of a slot is written by one thread: it appends what its
callbacks post, and its drain loop takes from the head.  Nothing is left behind when that thread leaves, because both
ways out of the drain loop say so: `IsEvtDescQueueEmpty` was false, and then the queue is not empty until the thread
takes from it; or the cache was empty, and only the thread itself can change that (`DrainInv`).

* `cacheStep` — what one step does to the cached events of a slot;
* `drainInv_reach` — a thread outside its drain loop has a queued event or no cached one;
* `cache_safe_reach` — the contract of the cache.
-/

namespace PlatIF.Ioc

variable {abi : Abi} {s s' : State abi} {t u : Tid} {a : Act abi} {i g : ℕ} {d : EvtDesc abi}
  {rest : List (Frame abi)} {f : PostFrame abi} {maxSuberNum : ULong abi} {clients : ℕ}

/-! ### Outside the drain loop -/

/-- Program points outside the drain loop, with the way out of it when the queue was not empty. -/
def AsyncPc.outsideDrain : AsyncPc abi → Bool
  | .start | .top | .waiting | .woken | .drainChk false => true
  | _ => false

theorem AsyncPc.idle_of_outsideDrain {pc : AsyncPc abi} (hp : pc.outsideDrain = true) : pc.idle := by
  cases pc <;> simp_all [AsyncPc.outsideDrain, AsyncPc.idle]

/-- What holds of the caches and the threads that drain them. -/
structure DrainInv (s : State abi) : Prop where
  outside : ∀ u i g pc, s.base u = .async i g pc → pc.outsideDrain = true →
    (s.suber i).evtQueue.isEmpty = false ∨ (s.suber i).evtCached.contents = []
  held : ∀ i, (s.suber i).evtCached.contents ≠ [] → ∃ u, s.RunsOn u i

/-- How a thread comes to a point outside its drain loop. -/
theorem Trans.outside_self (hT : ThreadInv s) (h : Trans s t a s') {pc' : AsyncPc abi}
    (hb' : s'.base t = .async i g pc') (hp : pc'.outsideDrain = true) :
    s'.ctx = s.ctx ∧ ∃ pc, s.base t = .async i g pc ∧
      (pc.outsideDrain = true ∨ (s.suber i).evtQueue.isEmpty = false ∨ (s.suber i).evtCached.contents = []) := by
  have hS := hT.stack t
  -- a thread with a call or a callback in progress does not come there
  have hstay : s.frames t ≠ [] → s'.base t ≠ s.base t := fun hne hb => by
    rw [← hb, hb'] at hS
    exact hne (hS.of_idle (AsyncPc.idle_of_outsideDrain hp))
  have hret : ∀ (s₁ : State abi) f rest r, s.frames t ≠ [] → s₁.base = s.base →
      s'.base t ≠ (s₁.retPost t f rest r).base t := fun s₁ f rest r hne h₁ h₂ => by
    rcases State.retPost_base_self s₁ t f rest r with h₃ | ⟨_, _, _, -, -, h₃⟩
    · exact hstay hne (by rw [h₂, h₃, h₁])
    · rw [h₂, h₃] at hb'
      cases hb'
      simp [AsyncPc.outsideDrain] at hp
  cases h
  case asyncStart hf hb | asyncWake hf hb =>
    simp only [State.setBase, State.setTls, Function.update_self] at hb'
    cases hb'
    exact ⟨rfl, _, hb, .inl rfl⟩
  case asyncWait hf hb hpc _ _ _ =>
    simp only [State.setBase, Function.update_self] at hb'
    cases hb'
    exact ⟨rfl, _, hb, .inl (by rcases hpc with rfl | rfl <;> rfl)⟩
  case asyncDrain hf hb _ =>
    simp only [State.setBase, Function.update_self] at hb'
    cases hb'
    refine ⟨rfl, _, hb, .inr (.inl ?_)⟩
    cases he : (s.suber i).evtQueue.isEmpty with
    | false => rfl
    | true => simp [he, AsyncPc.outsideDrain] at hp
  case asyncTop e hf hb hc =>
    simp only [State.setBase, Function.update_self] at hb'
    cases hb'
    refine ⟨rfl, _, hb, ?_⟩
    rcases hc with rfl | hc
    · exact .inl rfl
    · exact .inr (.inr (List.length_eq_zero_iff.mp (by rw [WrapRing.contents_length, hc])))
  case asyncExit | asyncTake | asyncReplay | asyncRetire | asyncRedo | asyncCall | cbRetAsync =>
    simp only [State.setBase, State.setFrames, State.obs, Function.update_self, reduceCtorEq] at hb'
    try
      cases hb'
      simp [AsyncPc.outsideDrain] at hp
  case halt => exact ⟨rfl, _, hb', .inl hp⟩
  case haltRetire hf hb _ _ =>
    simp only [State.halt, State.retire_eq, hb] at hb'
    cases hb'
    simp [AsyncPc.outsideDrain] at hp
  case unsubSignal hf _ hw | postSignal hf _ hw | postRetrySignal hf _ hw =>
    exact absurd (hw.base_self hS (by simp [hf])) (hstay (by simp [hf]))
  case postAccept hf _ _ _ | postFull hf _ _ _ _ | postRetry hf _ _ _ _ _ | haltPush hf _ =>
    exact absurd (State.withThread_base_self (hT.ne_nextTid (by simp [hf]))) (hstay (by simp [hf]))
  case postNotFound hf _ _ _ | postBusy hf _ _ _ | postCacheFull hf _ _ _ _ _ _ | postCache hf _ _ _ _ _ _ |
      postEnd hf _ _ => exact absurd rfl (hret _ _ _ _ (by simp [hf]) rfl)
  case call hu =>
    refine absurd rfl (hstay fun hf => ?_)
    rcases hu with ⟨-, hb⟩ | ⟨f, rest, hf'⟩
    · exact absurd (hb.symm.trans hb') (by simp)
    · simp [hf] at hf'
  all_goals exact absurd rfl (hstay (by simp [*]))

/-- Only its own thread takes from a queue. -/
theorem Effect.evtQueue_isEmpty (he : Effect s s' t) (hnew : s'.sid i ≠ s.nextSid)
    (hno : ¬ s.RunsOn t i) (hq : (s.suber i).evtQueue.isEmpty = false) : (s'.suber i).evtQueue.isEmpty = false := by
  cases he.slot i with
  | filled _ _ _ hs => exact absurd hs hnew
  | took hr => exact absurd hr hno
  | accepted _ _ hr h =>
    have hlt := (WrapRing.hasRoom_iff _).mp hr
    have hpow : evtQueueMax < 2 ^ abi.ulongBits := lt_of_lt_of_le (by decide) abi.pow_le
    rw [h, ← Bool.not_eq_true, WrapRing.isEmpty_iff_pending,
      WrapRing.pending_push _ _ (Nat.lt_of_le_of_lt hlt hpow)]
    exact Nat.succ_ne_zero _
  | started _ _ h => rwa [h.evtQueue]
  | same h | flagged _ _ _ h | freed _ _ h | kept _ _ _ h | cached h =>
    rw [h]
    exact hq

/-- A slot without a thread has nothing cached. -/
theorem DrainInv.contents_nil (hD : DrainInv s) (hW : OwnedInv s) (hx : (s.suber i).asyncThreadID = none) :
    (s.suber i).evtCached.contents = [] := by
  by_contra hne
  obtain ⟨u, hu⟩ := hD.held i hne
  rw [hW u i hu] at hx
  cases hx

theorem drainInv_outside (hT : ThreadInv s) (hA : AllocInv s) (hI : SlotInv s) (hO : OwnInv s) (hW : OwnedInv s)
    (hD : DrainInv s) (hok : noReuse s (t, a) = true) (h : Trans s t a s') (he : Effect s s' t)
    (hw : WatchStep s s' t) {pc : AsyncPc abi} (hb : s'.base u = .async i g pc) (hp : pc.outsideDrain = true) :
    (s'.suber i).evtQueue.isEmpty = false ∨ (s'.suber i).evtCached.contents = [] := by
  -- what another thread does to the slot of a running one
  have hother : u ≠ t → s.RunsOn u i → (s.suber i).evtQueue.isEmpty = false ∨ (s.suber i).evtCached.contents = [] →
      (s'.suber i).evtQueue.isEmpty = false ∨ (s'.suber i).evtCached.contents = [] := fun hu hr hold => by
    have hno : ¬ s.RunsOn t i := fun ht => hu (hO.unique u t i hr ht)
    have hnew : s'.sid i ≠ s.nextSid := fun hi => noReuse_fresh hA hI hT hok h hi hr
    rcases hold with hq | hc
    · exact .inl (he.evtQueue_isEmpty hnew hno hq)
    · rcases hw.evtCached_ne hT hno with h | ⟨-, h⟩
      · exact .inr (by rw [h, hc])
      · exact .inr h
  by_cases hu : u = t
  · subst hu
    obtain ⟨hc, pc₀, hb₀, hp₀⟩ := h.outside_self hT hb hp
    rw [State.suber, hc]
    rcases hp₀ with hp₀ | hq
    · exact hD.outside u i g pc₀ hb₀ hp₀
    · exact hq
  · cases h.base_ne hu with
    | same hb₀ =>
      rw [hb₀] at hb
      exact hother hu ⟨g, pc, hb⟩ (hD.outside u i g pc hb hp)
    | woken hb₀ hb₁ =>
      rw [hb₁] at hb
      cases hb
      exact hother hu ⟨g, _, hb₀⟩ (hD.outside u i g _ hb₀ rfl)
    | created hn _ hx _ hb₁ =>
      rw [hb₁] at hb
      cases hb
      have hno : ¬ s.RunsOn t i := fun ht => by
        rw [hW t i ht] at hx
        cases hx
      rcases hw.evtCached_ne hT hno with h | ⟨-, h⟩
      · exact .inr (by rw [h, hD.contents_nil hW hx])
      · exact .inr h

theorem drainInv_held (hT : ThreadInv s) (hD : DrainInv s) (h : Trans s t a s') (hw : WatchStep s s' t)
    (hne : (s'.suber i).evtCached.contents ≠ []) : ∃ u, s'.RunsOn u i := by
  have hlt : ∀ {u}, s.RunsOn u i → u < s.nextTid := fun {u} hr => by
    by_contra hge
    obtain ⟨g, pc, hb⟩ := hr
    rw [(hT.fresh u (Nat.not_lt.mp hge)).1] at hb
    cases hb
  by_cases ht : s.RunsOn t i
  · rcases h.runsOn_next hT (hlt ht) (.inr ht) with hb | hr
    · -- the thread ends, so it was outside its drain loop with nothing queued
      obtain ⟨g, pc, hb₀⟩ := ht
      obtain ⟨hp, -, hq, hc⟩ := h.ended hT hb₀ hb
      have hout : pc.outsideDrain = true := by rcases hp with rfl | rfl <;> rfl
      rw [State.suber, hc] at hne
      rcases hD.outside t i g pc hb₀ hout with h | h
      · simp [hq] at h
      · exact absurd h hne
    · exact ⟨t, hr⟩
  · rcases hw.evtCached_ne hT ht with hc | ⟨-, hc⟩
    · obtain ⟨u, g, pc, hb⟩ := hD.held i (hc ▸ hne)
      have hu : u ≠ t := fun hu => ht ⟨g, pc, hu ▸ hb⟩
      cases h.base_ne hu with
      | same hb₀ => exact ⟨u, g, pc, hb₀ ▸ hb⟩
      | woken hb₀ hb₁ =>
        rw [hb₀] at hb
        cases hb
        exact ⟨u, g, _, hb₁⟩
      | created hn => exact absurd hn (Nat.ne_of_lt (hlt ⟨g, pc, hb⟩))
    · exact absurd hc hne

/-- **Both ways out of the drain loop leave nothing behind.** -/
theorem drainInv_reach (h : Reach (fun s x => noSelfUnsub s x = true) maxSuberNum clients s) : DrainInv s := by
  refine h.induction ⟨fun u i g pc hb => ?_, fun i hne => ?_⟩ fun s s' t a hr hD hok _ h => ?_
  · exact absurd hb (State.init_base_ne _ _ u i g pc)
  · exact absurd (WrapRing.contents_of_eq rfl) hne
  · obtain ⟨hr', hW⟩ := owned_reach hr
    have hT := threadInv_reach hr
    have hA := allocInv_reach hr
    have hI := slotInv_reach hr
    have hO := ownInv_reach (fun _ _ h => h) hr'
    have hw := h.watchStep hA (watchInv_reach (fun _ _ h => h) hr' t).storing
    exact ⟨fun u i g pc => drainInv_outside hT hA hI hO hW hD (hW.noReuse hA hI _) h (h.effect hT hA) hw,
      fun i => drainInv_held hT hD h hw⟩

/-! ### The cached events from step to step -/

/-- What a step of `t` does to the cached events of slot `i`. -/
inductive CacheStep (s s' : State abi) (t : Tid) (i : ℕ) : Prop
  | same (h : (s'.suber i).evtCached.contents = (s.suber i).evtCached.contents)
  | stored {f : PostFrame abi} {rest : List (Frame abi)} (hf : s.frames t = .post f :: rest) (hp : f.pc = .lock)
      (ht : s.tls t = some i) (hr : (s.suber i).evtCached.pending < evtCachedMax)
      (h : (s'.suber i).evtCached.contents = (s.suber i).evtCached.contents ++ [f.pEvtDesc])
  | retired {g : ℕ} {p : CachedPtr abi} {r : TosResult} (hb : s.base t = .async i g (.drained p r))
      (hr : r = .success ∨ p.desc.mayDrop = true)
      (h : (s.suber i).evtCached.contents = p.desc :: (s'.suber i).evtCached.contents)
  | refilled (hs : s'.sid i = s.nextSid) (h : (s.suber i).evtCached.contents = [])
      (h' : (s'.suber i).evtCached.contents = [])

theorem cacheStep (hI : SlotInv s) (hW : OwnedInv s) (hD : DrainInv s) (hC : CacheInv s)
    (hH : HeadInv s) (hh : s.halted = none)
    (hcell : ∀ p, (s.base t).entry = some (i, p) → (s.suber i).evtCached.cells p.cell = p.desc)
    (he : Effect s s' t) (hw : WatchStep s s' t) : CacheStep s s' t i := by
  have hkeeps : KeepsCaches s s' → CacheStep s s' t i := fun hc => by
    rcases hc i with h | ⟨hs, h⟩
    · exact .same (by rw [h])
    · -- a slot that is filled was free, so it had no thread
      have hx : (s.suber i).asyncThreadID = none := by
        by_contra hne
        obtain ⟨u, hu⟩ := Option.ne_none_iff_exists'.mp hne
        have ho := (hI.thread i u hu).occupied
        rcases he.sid with ⟨hs', -⟩ | ⟨k, hfree, hs', -⟩
        · have := hI.sid_lt i
          rw [hs'] at hs
          omega
        · by_cases hik : i = k
          · exact hfree (hik ▸ ho)
          · have := hI.sid_lt i
            rw [hs', Function.update_of_ne hik] at hs
            omega
      exact .refilled hs (hD.contents_nil hW hx) h
  cases hw with
  | same _ hc | returned _ hc | accepted _ _ _ hc => exact hkeeps hc
  | @stored f k rest hf hp ht hr hc _ =>
    by_cases hik : i = k
    · subst hik
      have hlt := (WrapRing.hasRoom_iff _).mp hr
      refine .stored hf hp ht hlt ?_
      rw [State.suber, hc, Function.update_self]
      exact WrapRing.contents_push (evtCachedMax_dvd abi) (evtCachedMax_lt abi) _ _ hlt
    · exact .same (by rw [State.suber, hc, Function.update_of_ne hik])
  | @retired k g p r _ hb hr _ hc _ =>
    by_cases hik : i = k
    · subst hik
      have he : (s.base t).entry = some (i, p) := by rw [hb]; rfl
      refine .retired hb (hr.imp_right fun hd => hcell p he ▸ hd.2) ?_
      obtain ⟨-, hcons, -⟩ := (hC i).pop (hH hh t i p he).head
      rw [hcons, State.suber, State.suber, hc, Function.update_self]
    · exact .same (by rw [State.suber, hc, Function.update_of_ne hik])

theorem CacheStep.pending_le (h : CacheStep s s' t i) (hold : (s.suber i).evtCached.pending ≤ evtCachedMax) :
    (s'.suber i).evtCached.pending ≤ evtCachedMax := by
  rw [← WrapRing.contents_length] at hold ⊢
  cases h with
  | same h => rwa [h]
  | stored _ _ _ hr h =>
    rw [← WrapRing.contents_length] at hr
    rw [h, List.length_append]
    exact hr
  | retired _ _ h =>
    rw [h, List.length_cons] at hold
    omega
  | refilled _ _ h => simp [h]

theorem cacheStep_reach (hr : Reach (fun s x => noSelfUnsub s x = true) maxSuberNum clients s)
    (hn : next s (t, a) = some s') (i : ℕ) : CacheStep s s' t i := by
  obtain ⟨hh, h⟩ := next_trans hn
  obtain ⟨hr', hW⟩ := owned_reach hr
  obtain ⟨hC, hH⟩ := cache_reach (fun _ _ h => h) hr'
  have hA := allocInv_reach hr
  exact cacheStep (slotInv_reach hr) hW (drainInv_reach hr) hC hH hh
    (fun _ => cells_of_entry (fun _ _ h => h) hr' hh) (h.effect (threadInv_reach hr) hA) (h.watchStep hA (watchInv_reach (fun _ _ h => h) hr' t).storing)

theorem cached_le_reach (h : Reach (fun s x => noSelfUnsub s x = true) maxSuberNum clients s) (i : ℕ) :
    (s.suber i).evtCached.pending ≤ evtCachedMax := by
  induction h with
  | refl => simp [State.init, State.suber, Ctx.init, Suber.zero, WrapRing.pending]
  | tail x hr _ hn ih => exact (cacheStep_reach hr hn i).pending_le ih

/-! ### The contract of the cache -/

/-- The post takes the cache path: it has to wait for the context mutex, and runs on the async thread of slot `i`. -/
structure CachePath (s : State abi) (t : Tid) (f : PostFrame abi) (rest : List (Frame abi)) (i : ℕ) : Prop where
  top : s.frames t = .post f :: rest
  pc : f.pc = .lock
  busy : RecMutex.tryLock s.ctx.mutex t = none
  noNonBlock : isNonBlock f.pOptions = false
  noTimeout : isTimeout f.pOptions = false
  own : s.tls t = some i

/-- The post on top of the stack of `t`, when it takes the cache path. -/
def State.cachePath (s : State abi) (t : Tid) (i : ℕ) : Option (PostFrame abi × List (Frame abi)) :=
  match s.frames t with
  | .post f :: rest =>
    if f.pc = .lock ∧ RecMutex.tryLock s.ctx.mutex t = none ∧ isNonBlock f.pOptions = false ∧
        isTimeout f.pOptions = false ∧ s.tls t = some i then some (f, rest)
    else none
  | _ => none

theorem State.cachePath_eq_some (h : s.cachePath t i = some (f, rest)) : CachePath s t f rest i := by
  unfold State.cachePath at h
  split at h
  · rename_i hf
    split at h
    · rename_i hp
      simp only [Option.some.injEq, Prod.mk.injEq] at h
      obtain ⟨rfl, rfl⟩ := h
      obtain ⟨hpc, hm, hb, ho, ht⟩ := hp
      exact ⟨hf, hpc, hm, hb, ho, ht⟩
    · simp at h
  · simp at h

theorem CachePath.next_eq (hP : CachePath s t f rest i) (hn : next s (t, a) = some s') :
    s' = s.postCached t f rest i := by
  have hs := (next_trans hn).1
  cases a with
  | run env =>
    simp only [next, State.step, hs, hP.top, State.postStep, hP.pc, State.postLock, hP.busy, hP.noNonBlock,
      hP.noTimeout, hP.own] at hn
    exact (Option.some.inj hn).symm
  | _ => simp [next, State.step, hs, hP.top, State.postStep, hP.pc, State.postLock, hP.busy, hP.noTimeout] at hn

theorem UserStack.replay_mem {b : Base abi} {fs : List (Frame abi)} (h : UserStack b fs) {p : PostFrame abi}
    (hp : .post p ∈ fs) (hr : p.isReplay = true) : ∃ j g q, b = .async j g (.replay q) ∧ p.pEvtDesc = q.desc := by
  induction h with
  | client | async => simp at hp
  | sync _ _ hr' _ ih =>
    simp only [List.mem_cons, reduceCtorEq, false_or, Frame.post.injEq] at hp
    rcases hp with rfl | hp
    · simp [hr] at hr'
    · exact ih hp
  | replay _ _ _ hb hd _ =>
    simp only [List.mem_cons, reduceCtorEq, false_or, Frame.post.injEq, List.not_mem_nil, or_false] at hp
    subst hp
    exact ⟨_, _, _, hb, hd⟩

/-- A replay in progress replays the entry that its thread is at. -/
theorem Stack.replay_mem {b : Base abi} {fs : List (Frame abi)} (h : Stack b fs) {p : PostFrame abi}
    (hp : .post p ∈ fs) (hr : p.isReplay = true) : ∃ j g q, b = .async j g (.replay q) ∧ p.pEvtDesc = q.desc := by
  cases h with
  | user h => exact h.replay_mem hp hr
  | sub h | unsub h => exact h.replay_mem (by simpa using hp) hr
  | post _ hr' h =>
    simp only [List.mem_cons, Frame.post.injEq] at hp
    rcases hp with rfl | hp
    · simp [hr] at hr'
    · exact h.replay_mem hp hr
  | replay _ _ hb hd _ =>
    simp only [List.mem_cons, Frame.post.injEq, List.not_mem_nil, or_false] at hp
    subst hp
    exact ⟨_, _, _, hb, hd⟩
  | idle | gone => simp at hp

/-- The contract of the cache of slot `i`. -/
structure CacheSafe (s : State abi) (i : ℕ) : Prop where
  /-- `EvtPostCachedCnt - EvtProcCachedCnt` is between 0 and 4, for all values of the counters. -/
  bounded : ((s.suber i).evtCached.postCnt - (s.suber i).evtCached.procCnt).toNat ≤ evtCachedMax
  /-- What is cached is what was stored, less what was retired, in order. -/
  ledger : (s.suber i).evtCached.contents =
    ((stores (s.sid i) s.log).drop (retires (s.sid i) s.log).length).map Prod.snd
  /-- A post on the cache path is refused exactly when the cache is full, and otherwise its event is the last one. -/
  refused : ∀ t f rest a s', CachePath s t f rest i → next s (t, a) = some s' →
    (Returns s s' t (.post f) .notEnoughResource ↔ (s.suber i).evtCached.pending = evtCachedMax) ∧
      ((s.suber i).evtCached.pending = evtCachedMax → s' = s.ret t rest .notEnoughResource) ∧
      ((s.suber i).evtCached.pending ≠ evtCachedMax → Returns s s' t (.post f) .success ∧
        (s'.suber i).evtCached.contents = (s.suber i).evtCached.contents ++ [f.pEvtDesc])
  /-- Entries come at the end and go from the head, and what stays is not changed. -/
  step : ∀ t a s', next s (t, a) = some s' → CacheStep s s' t i
  /-- The drain loop replays the oldest entry, and looks at no other. -/
  replayed : s.halted = none → ∀ u p, .post p ∈ s.frames u → p.isReplay = true → s.RunsOn u i →
    (s.suber i).evtCached.contents.head? = some p.pEvtDesc ∧ s.desc u p = p.pEvtDesc
  /-- The thread leaves its loop only with both queues empty. -/
  left : ∀ t a s' u, next s (t, a) = some s' → s.RunsOn u i → s'.base u = .gone →
    (s.suber i).evtQueue.isEmpty = true ∧ (s.suber i).evtCached.contents = [] ∧
      (retires (s.sid i) s.log).length = (stores (s.sid i) s.log).length
  /-- A pending entry has a thread that will replay it. -/
  held : (s.suber i).evtCached.contents ≠ [] → ∃ u, s.RunsOn u i
  /-- A slot is freed only with nothing cached. -/
  freed : ∀ t a s', noSelfUnsub s (t, a) = true → next s (t, a) = some s' → (s.suber i).occupied →
    ¬ (s'.suber i).occupied → (s.suber i).evtCached.contents = []

theorem CacheOk.retires_eq {x : Suber abi} {l : Ledger abi} (h : CacheOk x l) (hc : x.evtCached.contents = []) :
    l.retires.length = l.stores.length := by
  have hle := h.le
  have hnil := h.contents
  rw [hc, eq_comm, List.map_eq_nil_iff, List.drop_eq_nil_iff] at hnil
  omega

theorem cache_refused (hS : Stack (s.base t) (s.frames t)) (hle : (s.suber i).evtCached.pending ≤ evtCachedMax)
    (hP : CachePath s t f rest i) (hn : next s (t, a) = some s') :
    (Returns s s' t (.post f) .notEnoughResource ↔ (s.suber i).evtCached.pending = evtCachedMax) ∧
      ((s.suber i).evtCached.pending = evtCachedMax → s' = s.ret t rest .notEnoughResource) ∧
      ((s.suber i).evtCached.pending ≠ evtCachedMax → Returns s s' t (.post f) .success ∧
        (s'.suber i).evtCached.contents = (s.suber i).evtCached.contents ++ [f.pEvtDesc]) := by
  have hs' := hP.next_eq hn
  have hr : f.isReplay = false := by
    by_contra hr
    have ho := Stack.replay_options (hP.top ▸ hS) (by simpa using hr)
    have hnb := hP.noNonBlock
    simp [ho] at hnb
  by_cases hfull : (s.suber i).evtCached.pending = evtCachedMax
  · have hroom : (s.suber i).evtCached.hasRoom = false := by
      rw [← Bool.not_eq_true, WrapRing.hasRoom_iff, hfull]
      exact lt_irrefl _
    have hret : s' = s.ret t rest .notEnoughResource := by
      simp [hs', State.postCached, hroom, State.retPost, hr]
    refine ⟨⟨fun _ => hfull, fun _ => ⟨?_, rfl, ?_⟩⟩, fun _ => hret, fun h => absurd hfull h⟩
    · rw [hret, hP.top]
      simp
    · rw [hret]
      simp
  · have hlt : (s.suber i).evtCached.pending < evtCachedMax := lt_of_le_of_ne hle hfull
    have hroom : (s.suber i).evtCached.hasRoom = true := (WrapRing.hasRoom_iff _).mpr hlt
    rw [State.postCached, hroom, if_pos rfl] at hs'
    have hlog : s'.log.getLast? = some (.ret t .success) := by simp [hs']
    refine ⟨⟨fun h => ?_, fun h => absurd h hfull⟩, fun h => absurd h hfull, fun _ => ⟨⟨?_, rfl, hlog⟩, ?_⟩⟩
    · have hres := h.result
      simp [hlog] at hres
    · simp [hs', hP.top]
    · rw [hs', State.suber, State.retPost_ctx]
      simp only [State.obs, State.setSuber, State.setCtx, Ctx.setSuber, Function.update_self]
      exact WrapRing.contents_push (evtCachedMax_dvd abi) (evtCachedMax_lt abi) _ _ hlt

/-- **Cached posts are kept safe until they are retired**, while no callback unsubscribes the subscription on whose
async thread it runs. -/
theorem cache_safe_reach (hr : Reach (fun s x => noSelfUnsub s x = true) maxSuberNum clients s) (i : ℕ) :
    CacheSafe s i := by
  obtain ⟨hr', hW⟩ := owned_reach hr
  obtain ⟨hC, hH⟩ := cache_reach (fun _ _ h => h) hr'
  have hT := threadInv_reach hr
  have hD := drainInv_reach hr
  constructor
  case bounded => exact cached_le_reach hr i
  case ledger => exact (hC i).contents
  case refused => exact fun t f rest a s' hP hn => cache_refused (hT.stack t) (cached_le_reach hr i) hP hn
  case step => exact fun t a s' hn => cacheStep_reach hr hn i
  case replayed =>
    intro hh u p hp hrep ⟨g, pc, hb⟩
    obtain ⟨j, g', q, hb', hd⟩ := (hT.stack u).replay_mem hp hrep
    rw [hb] at hb'
    cases hb'
    have he : (s.base u).entry = some (i, q) := by rw [hb]; rfl
    obtain ⟨-, hcons, -⟩ := (hC i).pop (hH hh u i q he).head
    refine ⟨by rw [hcons, hd]; rfl, ?_⟩
    rw [State.desc, hrep, hb, hd]
    exact cells_of_entry (fun _ _ h => h) hr' hh he
  case left =>
    intro t a s' u hn ⟨g, pc, hb⟩ hgone
    obtain ⟨hp, -, hq, -⟩ := (next_trans hn).2.ended hT hb hgone
    have hout : pc.outsideDrain = true := by rcases hp with rfl | rfl <;> rfl
    have hnil : (s.suber i).evtCached.contents = [] :=
      (hD.outside u i g pc hb hout).resolve_left (by simp [hq])
    exact ⟨hq, hnil, (hC i).retires_eq hnil⟩
  case held => exact hD.held i
  case freed =>
    intro t a s' hok hn ho hfree
    obtain ⟨hh, h⟩ := next_trans hn
    obtain ⟨f, rest, hf, hst⟩ := (h.effect hT (allocInv_reach hr)).freed_at ho hfree
    by_contra hne
    obtain ⟨u, hu⟩ := hD.held i hne
    exact hW.stopped hok hf hst hu

/-- The callback on thread `1` posts these events to itself. -/
def selfPosts (ids : List EvtID) : List (Tid × Act lp64) :=
  ids.flatMap fun id => [(1, .call (.postEVT (.ofID lp64 id) none)), (1, .go)]

/-- While thread `0` holds the context mutex, the callback on thread `1` posts four events, which are cached. -/
def fourCached : List (Tid × Act lp64) :=
  firstCallback 0 ++ [(0, .call (.postEVT (.ofID lp64 9) none)), (0, .go)] ++ selfPosts [7, 8, 7, 8]

/-- Of five events the fifth is refused; and the first is replayed and retired, with the other three left in order. -/
theorem cache_safe_full :
    (∃ (s s' : State lp64) (f : PostFrame lp64) (rest : List (Frame lp64)), CachePath s 1 f rest 0 ∧
      (s.suber 0).evtCached.pending = 4 ∧ next s (1, .go) = some s' ∧ Returns s s' 1 (.post f) .notEnoughResource ∧
        CacheSafe s 0) ∧
    ∃ (s s' : State lp64) (p : CachedPtr lp64), s.base 1 = .async 0 1 (.drained p .success) ∧
      next s (1, .go) = some s' ∧ (s.suber 0).evtCached.contents = [7, 8, 7, 8].map (.ofID lp64) ∧
      (s'.suber 0).evtCached.contents = [8, 7, 8].map (.ofID lp64) ∧ CacheSafe s 0 ∧ CacheStep s s' 1 0 := by
  constructor
  · obtain ⟨s, hr, hs⟩ := reach_of_run (fun s x => noSelfUnsub s x = true) (1 : ULong lp64) 1
      (fourCached ++ [(1, .call (.postEVT (.ofID lp64 7) none))])
      (fun s => (s.cachePath 1 0).isSome && decide ((s.suber 0).evtCached.pending = 4) && (next s (1, .go)).isSome)
      (by decide +kernel)
    simp only [Bool.and_eq_true, Option.isSome_iff_exists, decide_eq_true_eq, Prod.exists] at hs
    obtain ⟨⟨⟨f, rest, hpath⟩, hfull⟩, s', hn⟩ := hs
    have hP := State.cachePath_eq_some hpath
    have hsafe := cache_safe_reach hr 0
    exact ⟨s, s', f, rest, hP, hfull, hn, (hsafe.refused 1 f rest _ s' hP hn).1.mpr hfull, hsafe⟩
  · -- thread `0` lets the context mutex go, the callback returns, and the first event is replayed
    obtain ⟨s, hr, hs⟩ := reach_of_run (fun s x => noSelfUnsub s x = true) (1 : ULong lp64) 1
      (fourCached ++ [(0, .go), (0, .go), (1, .ret .success), (1, .go), (1, .go), (1, .go), (1, .go), (1, .go),
        (1, .signal none), (1, .go)])
      (fun s => (next s (1, .go)).any fun s' : State lp64 =>
        decide (s.base 1 = .async 0 1 (.drained ⟨0, .ofID lp64 7⟩ .success)) &&
        decide ((s.suber 0).evtCached.contents = [7, 8, 7, 8].map (.ofID lp64)) &&
        decide ((s'.suber 0).evtCached.contents = [8, 7, 8].map (.ofID lp64))) (by decide +kernel)
    simp only [Option.any_eq_true, Bool.and_eq_true, decide_eq_true_eq] at hs
    obtain ⟨s', hn, ⟨hb, hc⟩, hc'⟩ := hs
    have hsafe := cache_safe_reach hr 0
    exact ⟨s, s', _, hb, hn, hc, hc', hsafe, hsafe.step 1 .go s' hn⟩

end PlatIF.Ioc
