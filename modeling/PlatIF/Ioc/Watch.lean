import PlatIF.Ioc.Cache

/-!
# The calls of one thread

What the log tells an observer who watches thread `t`: how many calls it has returned from, which of its events are
in the cache of its slot, and which were accepted for a subscription, each with the number of the call that posted it.
An event that the drain loop replays keeps the number of the call that cached it.

`watchInv_reach` says that the observer is right while no slot is refilled over a running thread: what he takes for the
cache is the cache, in the order of the calls, and the drain loop replays the first of it.
-/

namespace PlatIF.Ioc

variable {abi : Abi} {s s' : State abi} {t u : Tid} {a : Act abi} {i g : ℕ} {d : EvtDesc abi} {p : CachedPtr abi}
  {rest : List (Frame abi)} {ok : State abi → Tid × Act abi → Prop} {maxSuberNum : ULong abi}
  {clients : ℕ}

/-! ### The observer -/

/-- An event accepted for a subscription, with the number of the call that posted it. -/
structure Acceptance (abi : Abi) where
  sid : ℕ
  call : ℕ
  pEvtDesc : EvtDesc abi
  deriving DecidableEq

/-- What is known of one thread.  An event is `storing` between the entry of the log that it was cached and the return
of the call that cached it. -/
structure Watch (abi : Abi) where
  calls : ℕ
  storing : Option (EvtDesc abi)
  cached : List (ℕ × EvtDesc abi)
  accepts : List (Acceptance abi)

/-- The number of the call that a pushed event comes from. -/
def Watch.origin (w : Watch abi) (isReplay : Bool) : ℕ :=
  if isReplay then (w.cached.head?.map Prod.fst).getD 0 else w.calls

/-- What one entry of the log adds. -/
def Watch.see (t : Tid) (w : Watch abi) : Obs abi → Watch abi
  | .accept g u isReplay d =>
    if u = t then { w with accepts := w.accepts ++ [⟨g, w.origin isReplay, d⟩] } else w
  | .store _ _ d => { w with storing := some d }
  | .retire _ u => if u = t then { w with cached := w.cached.tail } else w
  | .ret u _ =>
    if u = t then
      { w with calls := w.calls + 1, storing := none,
               cached := w.cached ++ (w.storing.map fun d => (w.calls, d)).toList }
    else { w with storing := none }
  | _ => w

/-- What the log shows of thread `t`. -/
def watch (t : Tid) (log : List (Obs abi)) : Watch abi := log.foldl (Watch.see t) ⟨0, none, [], []⟩

theorem watch_append (l l' : List (Obs abi)) : watch t (l ++ l') = l'.foldl (Watch.see t) (watch t l) :=
  List.foldl_append

/-- The step stores nothing into a cache and retires nothing from one: only a new subscription has another cache. -/
def KeepsCaches (s s' : State abi) : Prop :=
  ∀ j, (s'.suber j).evtCached = (s.suber j).evtCached ∨
    s'.sid j = s.nextSid ∧ (s'.suber j).evtCached.contents = []

/-- What a step of `t` adds to what is known of it. -/
inductive WatchStep (s s' : State abi) (t : Tid) : Prop
  | same (h : watch t s'.log = watch t s.log) (hc : KeepsCaches s s')
  | returned (h : watch t s'.log = { watch t s.log with calls := (watch t s.log).calls + 1 }) (hc : KeepsCaches s s')
  | stored {f i rest} (hf : s.frames t = .post f :: rest) (hp : f.pc = .lock) (ht : s.tls t = some i)
      (hr : (s.suber i).evtCached.hasRoom = true)
      (hc : s'.ctx.pEvtSubers = Function.update s.ctx.pEvtSubers i
        { s.suber i with evtCached := (s.suber i).evtCached.push f.pEvtDesc })
      (h : watch t s'.log = { watch t s.log with
        calls := (watch t s.log).calls + 1
        cached := (watch t s.log).cached ++ [((watch t s.log).calls, f.pEvtDesc)] })
  | accepted {f i rest} (hf : s.frames t = .post f :: rest) (hp : f.pc = .push i)
      (h : watch t s'.log = { watch t s.log with
        accepts := (watch t s.log).accepts ++ [⟨s.sid i, (watch t s.log).origin f.isReplay, s.desc t f⟩] })
      (hc : KeepsCaches s s')
  | retired {i g p r} (hf : s.frames t = []) (hb : s.base t = .async i g (.drained p r))
      (hr : r = .success ∨ s'.halted ≠ none ∧ ((s.suber i).evtCached.cells p.cell).mayDrop = true) (he : s'.halted = none → (s'.base t).entry = none)
      (hc : s'.ctx.pEvtSubers = Function.update s.ctx.pEvtSubers i
        { s.suber i with evtCached := (s.suber i).evtCached.pop })
      (h : watch t s'.log = { watch t s.log with cached := (watch t s.log).cached.tail })

theorem KeepsCaches.of_eq (hc : s'.ctx.pEvtSubers = s.ctx.pEvtSubers) : KeepsCaches s s' := fun j =>
  .inl (by rw [State.suber, hc])

theorem KeepsCaches.of_update {x : Suber abi} (hc : s'.ctx.pEvtSubers = Function.update s.ctx.pEvtSubers i x)
    (hx : x.evtCached = (s.suber i).evtCached) : KeepsCaches s s' := fun j => by
  by_cases hj : j = i
  · exact .inl (by simp [State.suber, hc, hj, hx])
  · exact .inl (by simp [State.suber, hc, hj])

theorem withThread_keepsCaches (hc : ∀ j, (s'.suber j).evtCached = ((s.withThread i).suber j).evtCached) :
    KeepsCaches s s' := fun j => .inl (by rw [hc]; by_cases hj : j = i <;> simp [State.suber, hj])

theorem watch_freeSlot (j : ℕ) : watch u (s.freeSlot t j).log = watch u s.log := by
  simp only [State.freeSlot, watch_append]
  split <;> rfl

theorem Trans.watchStep (hA : AllocInv s) (h : Trans s t a s') (hs : (watch t s.log).storing = none) :
    WatchStep s s' t := by
  have hret : ∀ r, Watch.see t (watch t s.log) (.ret t r) =
      { watch t s.log with calls := (watch t s.log).calls + 1 } := fun r => by simp [Watch.see, hs]
  cases h
  case subFull => exact .returned (by simp [watch_append, hret]) (.of_eq rfl)
  case subNoSlot => exact .returned (by simp [watch_append, hret]) (.of_eq hA.allocSubers)
  case subFill env f rest m i _ _ _ _ =>
    refine .returned (by simp [watch_append, Watch.see, hs]) fun j => ?_
    by_cases hj : j = i
    · refine .inr ⟨by simp [hj], ?_⟩
      cases env.malloc <;>
        exact WrapRing.contents_of_eq (by simp [State.suber, hj, Suber.ofArgs, Suber.ofArgsCopied, Suber.zero])
    · exact .inl (by simp [State.suber, hj, hA.allocSubers])
  case unsubNotFound | unsubEnd => exact .returned (by simp [watch_append, hret]) (.of_eq rfl)
  case unsubSetFlag => exact .same rfl (.of_update rfl rfl)
  case unsubFreeNext i _ _ _ _ => exact .same (watch_freeSlot i) (.of_update rfl rfl)
  case unsubKeepNext => exact .same rfl (.of_update rfl rfl)
  case unsubFreeDone i _ _ _ _ =>
    have hw := watch_freeSlot (s := s) (t := t) (u := t) i
    refine .returned ?_ (.of_update rfl rfl)
    simp only [State.ret_eq, State.setCtx, watch_append, hw]
    simp [hret]
  case unsubSignal hw | postSignal hw | postRetrySignal hw =>
    obtain ⟨b, rfl, -⟩ := hw.eq
    exact .same rfl (.of_eq rfl)
  case postNotFound | postBusy | postCacheFull | postEnd =>
    exact .returned (by simp [watch_append, hret]) (.of_eq (by simp))
  case postCache hf hp _ _ _ ht hr =>
    exact .stored hf hp ht hr (by simp) (by simp [watch_append, Watch.see, hs])
  case postAccept i hf hp _ _ =>
    refine .accepted hf hp (by simp [watch_append, Watch.see]) (withThread_keepsCaches (i := i) fun j => ?_)
    by_cases hj : j = i <;> simp [State.suber, hj]
  case postFull i _ _ _ _ _ | postRetry i _ _ _ _ _ _ =>
    exact .same (by simp) (withThread_keepsCaches (i := i) fun _ => rfl)
  case haltPush i _ _ =>
    refine .same (by simp) (withThread_keepsCaches (i := i) fun j => ?_)
    by_cases hj : j = i <;> simp [State.suber, hj]
  case asyncTake => exact .same rfl (.of_update rfl rfl)
  case asyncRetire hf hb =>
    exact .retired hf hb (.inl rfl) (fun _ => by simp [Base.entry]) rfl (by simp [watch_append, Watch.see])
  case haltRetire hf hb _ hd =>
    exact .retired hf hb (.inr ⟨by simp, hd⟩) (by simp) rfl (by simp [watch_append, Watch.see])
  all_goals exact .same (by simp [watch_append, Watch.see]) (.of_eq rfl)

/-- The steps of the other threads add nothing. -/
theorem Trans.watch_ne (h : Trans s t a s') (hu : u ≠ t) (hs : (watch u s.log).storing = none) :
    watch u s'.log = watch u s.log := by
  have hret : ∀ r, Watch.see u (watch u s.log) (.ret t r) = watch u s.log := fun r => by
    simp only [Watch.see, hu.symm, if_false, ← hs]
  cases h
  case unsubSignal hw | postSignal hw | postRetrySignal hw =>
    obtain ⟨b, rfl, -⟩ := hw.eq
    rfl
  case unsubFreeNext i _ _ _ _ => exact watch_freeSlot i
  case unsubFreeDone i _ _ _ _ =>
    have hw := watch_freeSlot (s := s) (t := t) (u := u) i
    simp only [State.ret_eq, State.setCtx, watch_append, hw]
    simp [hret]
  case postCache =>
    simp only [State.retPost_log, State.obs, watch_append]
    simp [Watch.see, hu.symm, ← hs]
  case subFill =>
    simp only [State.ret_eq, State.newSub, State.setCtx, watch_append]
    simp [Watch.see, hu.symm, ← hs]
  case subFull | subNoSlot | unsubNotFound | unsubEnd | postNotFound | postBusy | postCacheFull | postEnd =>
    simp [watch_append, hret]
  all_goals simp [watch_append, Watch.see, hu.symm]

/-! ### The cache -/

/-- A slot without a thread has nothing cached. -/
def EmptyInv (s : State abi) : Prop :=
  ∀ i, (s.suber i).occupied → (s.suber i).asyncThreadID = none → (s.suber i).evtCached.contents = []

/-- What is known of thread `t` is so. -/
structure WatchInv (s : State abi) (t : Tid) : Prop where
  storing : (watch t s.log).storing = none
  ascending : (watch t s.log).cached.Pairwise fun x y => x.1 < y.1
  lt : ∀ x ∈ (watch t s.log).cached, x.1 < (watch t s.log).calls
  quiet : s.base t = .client ∨ s.nextTid ≤ t → (watch t s.log).cached = []
  contents : ∀ i, s.RunsOn t i → (s.suber i).evtCached.contents = (watch t s.log).cached.map Prod.snd
  head : s.halted = none → ∀ i p, (s.base t).entry = some (i, p) →
    ∃ n, (watch t s.log).cached.head? = some (n, p.desc)

theorem WatchStep.storing (hw : WatchStep s s' t) (hs : (watch t s.log).storing = none) :
    (watch t s'.log).storing = none := by
  cases hw with
  | same h | returned h | stored _ _ _ _ _ h | accepted _ _ h | retired _ _ _ _ _ h =>
    rw [h]
    exact hs

/-- The calls with cached events stay in order. -/
theorem WatchStep.ascending (hw : WatchStep s s' t)
    (hp : (watch t s.log).cached.Pairwise fun x y => x.1 < y.1)
    (hl : ∀ x ∈ (watch t s.log).cached, x.1 < (watch t s.log).calls) :
    ((watch t s'.log).cached.Pairwise fun x y => x.1 < y.1) ∧
      ∀ x ∈ (watch t s'.log).cached, x.1 < (watch t s'.log).calls := by
  cases hw with
  | same h | accepted _ _ h =>
    rw [h]
    exact ⟨hp, hl⟩
  | returned h =>
    rw [h]
    exact ⟨hp, fun x hx => Nat.lt_succ_of_lt (hl x hx)⟩
  | stored _ _ _ _ _ h =>
    rw [h]
    refine ⟨List.pairwise_append.mpr ⟨hp, List.pairwise_singleton _ _, fun x hx y hy => ?_⟩, fun x hx => ?_⟩
    · rw [List.mem_singleton.mp hy]
      exact hl x hx
    · rcases List.mem_append.mp hx with hx | hx
      · exact Nat.lt_succ_of_lt (hl x hx)
      · rw [List.mem_singleton.mp hx]
        exact Nat.lt_succ_self _
  | retired _ _ _ _ _ h =>
    rw [h]
    exact ⟨hp.sublist (List.tail_sublist _), fun x hx => hl x (List.mem_of_mem_tail hx)⟩

/-- Only the thread of a slot writes to its cache. -/
theorem WatchStep.evtCached_ne (hT : ThreadInv s) (hw : WatchStep s s' t) (hno : ¬ s.RunsOn t i) :
    (s'.suber i).evtCached = (s.suber i).evtCached ∨
      s'.sid i = s.nextSid ∧ (s'.suber i).evtCached.contents = [] := by
  cases hw with
  | same _ hc | returned _ hc | accepted _ _ _ hc => exact hc i
  | @stored f k rest hf _ ht _ hc _ =>
    have hik : i ≠ k := fun hik => hno (hik ▸ hT.async_of_tls (by simp [hf]) ht)
    exact .inl (by simp [State.suber, hc, hik])
  | @retired k g d r _ hb _ _ hc _ =>
    have hik : i ≠ k := fun hik => hno ⟨g, _, hik ▸ hb⟩
    exact .inl (by simp [State.suber, hc, hik])

/-- What a slot holds that was just filled. -/
theorem Effect.blank_of_new (hI : SlotInv s) (he : Effect s s' t) (hi : s'.sid i = s.nextSid) :
    (s'.suber i).Blank := by
  have hlt := hI.sid_lt i
  rcases he.sid with ⟨hs, -⟩ | ⟨k, -, hs, -, hb, -⟩
  · rw [hs] at hi
    omega
  · by_cases hik : i = k
    · exact hik ▸ hb
    · rw [hs, Function.update_of_ne hik] at hi
      omega

theorem emptyInv_trans (hT : ThreadInv s) (hI : SlotInv s) (hO : OwnInv s) (hE : EmptyInv s)
    (he : Effect s s' t) (hw : WatchStep s s' t) : EmptyInv s' := by
  intro i ho hx
  rcases he.live ho with ⟨hs, -⟩ | ⟨hs, ho₀, -⟩
  · rw [(he.blank_of_new hI hs).evtCached]
    exact WrapRing.contents_of_eq rfl
  · have hx₀ : (s.suber i).asyncThreadID = none := by
      cases he.thread i with
      | same h _ => exact h ▸ hx
      | fresh _ _ _ h => simp [h] at hx
      | letGo _ hl =>
        by_contra hne
        obtain ⟨u, hu⟩ := Option.ne_none_iff_exists'.mp hne
        have hlt := hI.sid_lt i
        rcases hl with hl | hl | hl
        · omega
        · exact hl ho
        · exact (hI.thread i u hu).ids hl
    have hno : ¬ s.RunsOn t i := fun hr => by
      rcases hO.owner t i hr with h | h
      · simp [hx₀] at h
      · exact h ho₀
    rcases hw.evtCached_ne hT hno with h | ⟨-, h⟩
    · rw [h]
      exact hE i ho₀ hx₀
    · exact h

/-- Ordinary threads, and those still to come, have nothing cached. -/
theorem quiet_trans (hT : ThreadInv s) (hW : WatchInv s u) (h : Trans s t a s') (hw : WatchStep s s' t)
    (hq : s'.base u = .client ∨ s'.nextTid ≤ u) : (watch u s'.log).cached = [] := by
  have hq₀ : s.base u = .client ∨ s.nextTid ≤ u := by
    rcases hq with hb | hu
    · cases h.base_next hT u with
      | same h => exact .inl (h ▸ hb)
      | moved _ h | ended _ h | created _ _ _ h => simp [hb] at h
    · exact .inr (h.nextTid_le.trans hu)
  have hold := hW.quiet hq₀
  -- a thread that runs the async loop is neither
  have hno : ∀ {i g pc}, s.base u ≠ .async i g pc := fun hb => by
    rcases hq₀ with hb' | hu
    · simp [hb'] at hb
    · simp [(hT.fresh u hu).1] at hb
  by_cases hu : u = t
  · subst hu
    cases hw with
    | same h | returned h | accepted _ _ h => rw [h, hold]
    | stored hf _ ht =>
      obtain ⟨g, pc, hb⟩ := hT.async_of_tls (by simp [hf]) ht
      exact absurd hb hno
    | retired _ hb => exact absurd hb hno
  · rw [h.watch_ne hu hW.storing]
    exact hold

/-- The steps of its own thread keep a cache as the observer has it. -/
theorem contents_self (hT : ThreadInv s) (hW : WatchInv s t) (hh : s.halted = none) (hw : WatchStep s s' t)
    (hr : s.RunsOn t i) (hsid : s'.sid i ≠ s.nextSid) :
    (s'.suber i).evtCached.contents = (watch t s'.log).cached.map Prod.snd := by
  have hold := hW.contents i hr
  obtain ⟨g, pc, hb⟩ := hr
  cases hw with
  | same h hc | returned h hc | accepted _ _ h hc =>
    rw [((hc i).resolve_right fun h => hsid h.1), h]
    exact hold
  | @stored f k rest hf _ ht hroom hc h =>
    obtain ⟨g', pc', hb'⟩ := hT.async_of_tls (by simp [hf]) ht
    obtain rfl : i = k := (Base.async.inj (hb.symm.trans hb')).1
    rw [h, List.map_append, ← hold, State.suber, hc, Function.update_self]
    exact WrapRing.contents_push (evtCachedMax_dvd abi) (evtCachedMax_lt abi) _ _ ((WrapRing.hasRoom_iff _).mp hroom)
  | @retired k g' p r _ hb' _ _ hc h =>
    obtain rfl : i = k := (Base.async.inj (hb.symm.trans hb')).1
    obtain ⟨n, hn⟩ := hW.head hh i p (by rw [hb']; rfl)
    obtain ⟨tl, htl⟩ := List.head?_eq_some_iff.mp hn
    have hne : (s.suber i).evtCached.pending ≠ 0 := fun h0 => by
      rw [← WrapRing.contents_length, hold, htl] at h0
      simp at h0
    rw [WrapRing.contents_pop _ hne, htl, List.map_cons, List.cons.injEq] at hold
    rw [h, htl, State.suber, hc, Function.update_self]
    exact hold.2

theorem contents_trans (hT : ThreadInv s) (hA : AllocInv s) (hH : HolderInv s) (hI : SlotInv s) (hO : OwnInv s)
    (hE : EmptyInv s) (hW : WatchInv s u) (hh : s.halted = none) (hok : noReuse s (t, a) = true)
    (h : Trans s t a s') (he : Effect s s' t) (hw : WatchStep s s' t) (hr : s'.RunsOn u i) :
    (s'.suber i).evtCached.contents = (watch u s'.log).cached.map Prod.snd := by
  rcases h.runsOn hT hr with hr₀ | ⟨hx, hx'⟩
  · have hsid : s'.sid i ≠ s.nextSid := fun hi => noReuse_fresh hA hI hT hok h hi hr₀
    by_cases hu : u = t
    · subst hu
      exact contents_self hT hW hh hw hr₀ hsid
    · have hno : ¬ s.RunsOn t i := fun ht => hu (hO.unique u t i hr₀ ht)
      rw [h.watch_ne hu hW.storing, (hw.evtCached_ne hT hno).resolve_right fun h => hsid h.1]
      exact hW.contents i hr₀
  · -- a thread that was just started
    cases he.thread i with
    | same h₁ => simp [h₁, hx] at hx'
    | letGo h₁ => simp [h₁] at hx'
    | @fresh f rest hf hp _ h₁ =>
      obtain rfl : s.nextTid = u := by simpa [h₁] using hx'
      have ho := (hH.post t _ _ i hf (by rw [hp]; rfl)).occupied
      have hno : ¬ s.RunsOn t i := fun ht => by
        rcases hO.owner t i ht with h | h
        · simp [hx] at h
        · exact h ho
      have hu : s.nextTid ≠ t := (hT.ne_nextTid (by simp [hf])).symm
      rw [h.watch_ne hu hW.storing, hW.quiet (.inr le_rfl)]
      rcases hw.evtCached_ne hT hno with h | ⟨-, h⟩
      · rw [h]
        exact hE i ho hx
      · exact h

/-- The drain loop works on the first cached event. -/
theorem head_trans (hT : ThreadInv s) (hW : WatchInv s u) (hh : s.halted = none) (h : Trans s t a s')
    (hw : WatchStep s s' t) (hh' : s'.halted = none)
    (hC : ∀ i, s'.RunsOn u i → (s'.suber i).evtCached.contents = (watch u s'.log).cached.map Prod.snd)
    (he : (s'.base u).entry = some (i, p)) : ∃ n, (watch u s'.log).cached.head? = some (n, p.desc) := by
  cases h.entry hT u with
  | same h₀ =>
    obtain ⟨n, hn⟩ := hW.head hh i p (h₀ ▸ he)
    by_cases hu : u = t
    · subst hu
      cases hw with
      | same h | returned h | accepted _ _ h => exact ⟨n, by rw [h]; exact hn⟩
      | stored _ _ _ _ _ h =>
        rw [h]
        exact ⟨n, by rw [List.head?_append, hn]; rfl⟩
      | retired _ _ _ hnone => simp [hnone hh'] at he
    · rw [h.watch_ne hu hW.storing]
      exact ⟨n, hn⟩
  | @taken j hu h₀ hp hc =>
    rw [h₀, Option.some.injEq, Prod.mk.injEq] at he
    obtain ⟨rfl, rfl⟩ := he
    have hcons := hC j (State.runsOn_of_entry h₀)
    rw [State.suber, hc, WrapRing.contents_pop _ hp] at hcons
    cases hl : (watch u s'.log).cached with
    | nil => simp [hl] at hcons
    | cons x l =>
      rw [hl, List.map_cons, List.cons.injEq] at hcons
      exact ⟨x.1, by rw [hcons.1]; rfl⟩
  | retired h₀ _ | redone _ _ h₀ _ => simp [h₀] at he

theorem watchInv_trans (hT : ThreadInv s) (hA : AllocInv s) (hH : HolderInv s) (hI : SlotInv s) (hO : OwnInv s)
    (hE : EmptyInv s) (hW : ∀ u, WatchInv s u) (hh : s.halted = none) (hok : noReuse s (t, a) = true)
    (h : Trans s t a s') (u : Tid) : WatchInv s' u := by
  have he := h.effect hT hA
  have hw := h.watchStep hA (hW t).storing
  have hC : ∀ i, s'.RunsOn u i → (s'.suber i).evtCached.contents = (watch u s'.log).cached.map Prod.snd :=
    fun i hr => contents_trans hT hA hH hI hO hE (hW u) hh hok h he hw hr
  have hord : (watch u s'.log).storing = none ∧ ((watch u s'.log).cached.Pairwise fun x y => x.1 < y.1) ∧
      ∀ x ∈ (watch u s'.log).cached, x.1 < (watch u s'.log).calls := by
    by_cases hu : u = t
    · subst hu
      exact ⟨hw.storing (hW u).storing, hw.ascending (hW u).ascending (hW u).lt⟩
    · rw [h.watch_ne hu (hW u).storing]
      exact ⟨(hW u).storing, (hW u).ascending, (hW u).lt⟩
  exact ⟨hord.1, hord.2.1, hord.2.2, quiet_trans hT (hW u) h hw, hC,
    fun hh' i p => head_trans hT (hW u) hh h hw hh' hC⟩

/-- **The observer is right.** -/
theorem watchInv_reach (hok : ∀ s x, ok s x → noReuse s x = true) (h : Reach ok maxSuberNum clients s) :
    ∀ u, WatchInv s u := by
  refine (h.induction (P := fun s => EmptyInv s ∧ ∀ u, WatchInv s u) ⟨fun i ho => ?empty, fun u => ?watch⟩
    fun s s' t a hr hP ha hh h => ?step).2
  case empty => simp [State.init, State.suber, Ctx.init, Suber.zero, Suber.occupied] at ho
  case watch =>
    refine ⟨rfl, .nil, by simp [watch, State.init], fun _ => rfl, fun i hr => ?_, fun _ i p he => ?_⟩
    · exact absurd hr (State.init_not_runsOn u i)
    · exact absurd (State.runsOn_of_entry he) (State.init_not_runsOn u i)
  case step =>
    have hT := threadInv_reach hr
    have hA := allocInv_reach hr
    have hI := slotInv_reach hr
    have hO := ownInv_reach hok hr
    exact ⟨emptyInv_trans hT hI hO hP.1 (h.effect hT hA) (h.watchStep hA (hP.2 t).storing),
      watchInv_trans hT hA (holderInv_reach hr) hI hO hP.1 hP.2 hh (hok _ _ ha) h⟩

end PlatIF.Ioc
