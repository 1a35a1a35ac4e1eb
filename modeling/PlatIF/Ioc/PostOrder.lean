import PlatIF.Ioc.PostAbort
import PlatIF.Ioc.Watch

/-!
# The order of the posts of one thread

A post with default options pushes its event at once when it obtains the context mutex, and else, on an async thread,
puts it into the cache.  The two ways keep the order of the calls unless a direct push passes an event that is still
cached, or a replay succeeds that a subscription has refused.

* `seenInv_reach` — the visits of a fan-out are acceptances that the observer has seen;
* `clearInv_reach` — a direct post has passed no cached event of its thread, for a subscription that lists both;
* `lossless_reach` — a replay that returns `SUCCESS` was refused nowhere;
* `post_order` — the law; `post_overtakes` — what happens otherwise.
-/

namespace PlatIF.Ioc

variable {abi : Abi} {s s' s₁ s₁' : State abi} {t u : Tid} {a b : Act abi} {i g n : ℕ} {d : EvtDesc abi}
  {f f₁ : PostFrame abi} {r : TosResult} {rest : List (Frame abi)} {ok : State abi → Tid × Act abi → Prop}
  {maxSuberNum : ULong abi} {clients : ℕ}

/-! ### The conditions -/

/-- A call without any of the three delivery options. -/
def PostFrame.isDefault (f : PostFrame abi) : Bool :=
  !isNonBlock f.pOptions && !isTimeout f.pOptions && !isSyncMode f.pOptions

/-- The step is not that of a default post that obtains the context mutex while the cache of its thread holds an event
which some subscription lists together with the posted one. -/
def noOvertaking (s : State abi) (x : Tid × Act abi) : Bool :=
  match s.frames x.1, s.tls x.1 with
  | .post f :: _, some i =>
    decide (f.pc ≠ .lock) || !f.isDefault || (RecMutex.tryLock s.ctx.mutex x.1).isNone ||
      (List.range s.ctx.maxSuberNum.toNat).all fun j =>
        !(s.suber j).args.lists f.pEvtDesc ||
          (s.suber i).evtCached.contents.all fun d => !(s.suber j).args.lists d
  | _, _ => true

/-- The step is not that of a replay that was refused and is now accepted by its last matching subscription. -/
def noLoss (s : State abi) (x : Tid × Act abi) : Bool :=
  match s.frames x.1 with
  | .post f :: _ =>
    match f.pc with
    | .push i =>
      !f.isReplay || !(s.suber i).evtQueue.hasRoom || f.visits.all (fun v => v.2 != .queue false) ||
        s.listsFrom (i + 1) f.pEvtDesc
    | _ => true
  | _ => true

/-- The conditions under which the posts of a thread keep their order. -/
def orderOk (s : State abi) (x : Tid × Act abi) : Prop :=
  noReuse s x = true ∧ noOvertaking s x = true ∧ noLoss s x = true

instance (s : State abi) (x : Tid × Act abi) : Decidable (orderOk s x) :=
  inferInstanceAs (Decidable (_ ∧ _))

theorem PostFrame.isDefault_iff : f.isDefault = true ↔
    isNonBlock f.pOptions = false ∧ isTimeout f.pOptions = false ∧ isSyncMode f.pOptions = false := by
  simp [PostFrame.isDefault, and_assoc]

/-! ### Refusals -/

/-- A call that waits for room is refused nowhere. -/
theorem unrefused_reach (h : Reach ok maxSuberNum clients s) :
    ∀ t p, .post p ∈ s.frames t → isNonBlock p.pOptions = false → ∀ v ∈ p.visits, v.2 ≠ .queue false :=
  h.induction (P := fun s => ∀ t p, .post p ∈ s.frames t → isNonBlock p.pOptions = false →
      ∀ v ∈ p.visits, v.2 ≠ .queue false)
    (fun t p hp => by simp [State.init] at hp)
    fun s s' t _ _ hP _ _ h u => by
      by_cases hu : u = t
      · subst hu
        have hadd : ∀ {vs : List (ℕ × Visit)} {v : ℕ × Visit}, (∀ v ∈ vs, v.2 ≠ .queue false) →
            v.2 ≠ .queue false → ∀ w ∈ vs ++ [v], w.2 ≠ .queue false := fun hvs hv w hw => by
          rcases List.mem_append.mp hw with hw | hw
          · exact hvs w hw
          · rwa [List.mem_singleton.mp hw]
        refine post_step (hP u) h ?fresh ?locked ?skip ?enter ?wrote ?returned ?accept ?full ?retry ?signal
        case fresh => exact fun p _ hv _ _ _ => by simp [hv]
        case locked => exact fun f rest _ hold _ => hold
        case skip => exact fun f rest i _ hold _ _ _ => hold
        case enter => exact fun f rest i pc _ hold _ _ _ _ => hold
        case wrote => exact fun c p rest i d _ hold _ _ _ => hold
        case returned => exact fun c p rest i r _ hold _ ho => hadd (hold ho) (by simp)
        case accept => exact fun f rest i _ hold _ _ ho => hadd (hold ho) (by simp)
        case full =>
          intro f rest i _ _ _ _ hnb (ho : isNonBlock f.pOptions = false)
          simp [ho] at hnb
        case retry => exact fun f rest i pc _ hold _ => hold
        case signal => exact fun f rest i _ hold _ => hold
      · rw [h.frames_ne hu]
        exact hP u

/-- A call that was refused has a matching subscription ahead, or does not return `SUCCESS`. -/
def PostFrame.Lossless (n : ℕ) (f : PostFrame abi) : Prop :=
  (∀ v ∈ f.visits, v.2 ≠ .queue false) ∨
    match f.pc with
    | .loop i => (∃ j, i ≤ j ∧ j < n ∧ f.lists j = true) ∨ f.value ≠ .success
    | .signal i => ∃ j, i < j ∧ j < n ∧ f.lists j = true
    | .lock => False
    | _ => True

theorem lossless_step (hK : KeptInv false s) (hS : Stack (s.base t) (s.frames t))
    (hD : ∀ f rest, s.frames t = .post f :: rest → s.desc t f = f.pEvtDesc)
    (hV : ∀ p, .post p ∈ s.frames t → p.Kind s.ctx.isSyncMode) (hy : s.ctx.isSyncMode = false)
    (hok : noLoss s (t, a) = true)
    (hP : ∀ p, .post p ∈ s.frames t → p.isReplay = true → p.Lossless s.ctx.maxSuberNum.toNat) (h : Trans s t a s') :
    ∀ p, .post p ∈ s'.frames t → p.isReplay = true → p.Lossless s.ctx.maxSuberNum.toNat := by
  refine replay_step hK hS hD hV hy hP h ?fresh ?locked ?skip ?enter ?accept ?full ?retry ?signal
  case fresh => exact fun p _ hv => .inl (by simp [hv])
  case locked =>
    intro f rest _ _ hold hp
    simp only [PostFrame.Lossless, hp, or_false] at hold
    exact .inl hold
  case skip =>
    intro f i ds hold hp hi hl
    simp only [PostFrame.Lossless, hp] at hold
    rcases hold with hv | ⟨j, hij, hj, hlj⟩ | hv
    · exact .inl hv
    · refine .inr (.inl ⟨j, ?_, hj, hlj⟩)
      have hne : j ≠ i := by
        rintro rfl
        simp [hl] at hlj
      omega
    · exact .inr (.inr hv)
  case enter => exact fun f i ds _ _ => .inr trivial
  case accept =>
    intro f rest i hf hr _ hp hroom hlist
    simp only [noLoss, hf, hp, hr, hroom, Bool.not_true, Bool.false_or, Bool.or_eq_true, List.all_eq_true, bne_iff_ne,
      ne_eq, State.listsFrom_iff] at hok
    rcases hok with hv | ⟨j, hij, hj, hl⟩
    · refine .inl fun v hm => ?_
      rcases List.mem_append.mp hm with hm | hm
      · exact hv v hm
      · simp [List.mem_singleton.mp hm]
    · exact .inr ⟨j, hij, hj, (hlist j hj).symm.trans hl⟩
  case full => exact fun f rest i _ _ _ _ _ _ => .inr (.inr (by simp [PostFrame.value]))
  case retry =>
    intro f i pc _ hpc
    rcases hpc with ⟨-, rfl⟩ | ⟨-, rfl⟩ <;> exact .inr trivial
  case signal =>
    intro f i hold hp
    simp only [PostFrame.Lossless, hp] at hold
    rcases hold with hv | ⟨j, hij, hj, hl⟩
    · exact .inl hv
    · exact .inr (.inl ⟨j, hij, hj, hl⟩)

theorem lossless_reach (hok : ∀ s x, ok s x → noReuse s x = true) (hok' : ∀ s x, ok s x → noLoss s x = true)
    (h : Reach ok maxSuberNum clients s) :
    ∀ t p, .post p ∈ s.frames t → p.isReplay = true → p.Lossless maxSuberNum.toNat :=
  h.induction (P := fun s => ∀ t p, .post p ∈ s.frames t → p.isReplay = true → p.Lossless maxSuberNum.toNat)
    (fun t p hp => by simp [State.init] at hp)
    fun s s' t _ hr hP ha hh h u => by
      by_cases hu : u = t
      · subst hu
        have hK := keptAsync_reach hr
        rw [← maxSuberNum_reach hr] at hP ⊢
        exact lossless_step hK ((threadInv_reach hr).stack u) (fun f rest => desc_of_noReuse hok hr hh)
          (kind_reach hr u) (isSyncMode_reach hr) (hok' _ _ ha) (hP u) h
      · rw [h.frames_ne hu]
        exact hP u

/-! ### Fan-outs and the observer -/

theorem watch_accept (hl : s'.log = s.log ++ [.accept g t f.isReplay d]) : watch t s'.log = { watch t s.log with
    accepts := (watch t s.log).accepts ++ [⟨g, (watch t s.log).origin f.isReplay, d⟩] } := by
  simp [hl, watch_append, Watch.see]

/-- The observer has seen every push of a fan-out in progress. -/
def SeenInv (s : State abi) : Prop :=
  ∀ t f rest, s.frames t = .post f :: rest → f.pc ≠ .lock → s.isSync f = false → ∀ j, (j, .queue true) ∈ f.visits →
    ⟨s.sid j, (watch t s.log).origin f.isReplay, f.pEvtDesc⟩ ∈ (watch t s.log).accepts

theorem seen_self (hP : SeenInv s) (hS : Stack (s.base t) (s.frames t)) (hV : ∀ p, .post p ∈ s.frames t → p.Sound)
    (hK : ∀ p, .post p ∈ s.frames t → p.Kind s.ctx.isSyncMode)
    (hD : ∀ f rest, s.frames t = .post f :: rest → s.desc t f = f.pEvtDesc) (h : Trans s t a s')
    (hf' : s'.frames t = .post f :: rest) (hp' : f.pc ≠ .lock) (hy : s'.isSync f = false) {j : ℕ}
    (hj : (j, .queue true) ∈ f.visits) :
    ⟨s'.sid j, (watch t s'.log).origin f.isReplay, f.pEvtDesc⟩ ∈ (watch t s'.log).accepts := by
  have hsync : ∀ {g : PostFrame abi}, f.pOptions = g.pOptions → s.isSync g = false := fun ho => by
    unfold State.isSync at *
    rwa [← ho, ← h.isSyncMode_eq]
  cases h.postStep hS hf' with
  | called hp => exact absurd hp hp'
  | locked hf hp _ _ hv =>
    have hsound := hV _ (hf ▸ List.mem_cons_self)
    simp only [PostFrame.Sound, hp] at hsound
    simp [hv, hsound.1] at hj
  | moved hf hp hd ho _ hv _ _ hr hg hl =>
    rw [hl, hg, hr, hd]
    exact hP t _ _ hf hp (hsync ho) j ((hv j).mp hj)
  | accepted hf hp hd ho _ hv _ _ _ _ hr hg hl =>
    rw [watch_accept hl, hg, hr, hd, hD _ _ hf]
    rw [hv, List.mem_append, List.mem_singleton, Prod.mk.injEq] at hj
    rcases hj with hj | ⟨rfl, -⟩
    · exact List.mem_append_left _ (hP t _ _ hf (by simp [hp]) (hsync ho) j hj)
    · exact List.mem_append_right _ (List.mem_singleton_self _)
  | returned hf hp _ _ ho =>
    have hk := (hK _ (hf ▸ List.mem_cons_of_mem _ List.mem_cons_self)).inCb _ hp
    have := hsync ho
    unfold State.isSync at this
    simp [this] at hk

theorem seenInv_reach (hok : ∀ s x, ok s x → noReuse s x = true) (h : Reach ok maxSuberNum clients s) : SeenInv s :=
  h.induction (fun t f rest hf => by simp [State.init] at hf)
    fun s s' t _ hr hP _ hh h u f rest hf hp hy j hj => by
      by_cases hu : u = t
      · subst hu
        exact seen_self hP ((threadInv_reach hr).stack u) (sound_reach hr u) (kind_reach hr u)
          (fun f rest => desc_of_noReuse hok hr hh) h hf hp hy hj
      · rw [h.frames_ne hu] at hf
        have hL := lockInv_reach hr
        rw [(h.sameTable hL hu (hL.post_holder hf hp)).sid, h.watch_ne hu (watchInv_reach hok hr u).storing]
        exact hP u f rest hf hp (by unfold State.isSync at *; rwa [← h.isSyncMode_eq]) j hj

/-- For no subscription has a default post in progress passed a cached event of its thread. -/
def ClearInv (s : State abi) : Prop :=
  ∀ t f rest, s.frames t = .post f :: rest → f.pc ≠ .lock → f.isReplay = false → f.isDefault = true →
    ∀ j, j < s.ctx.maxSuberNum.toNat → f.lists j = true →
      ∀ x ∈ (watch t s.log).cached, (f.table j).args.lists x.2 = false

theorem clear_self (hT : ThreadInv s) (hW : WatchInv s t) (hP : ClearInv s)
    (hK : ∀ p, .post p ∈ s.frames t → p.Kind s.ctx.isSyncMode) (hy : s.ctx.isSyncMode = false)
    (hok : noOvertaking s (t, a) = true) (h : Trans s t a s') (hf' : s'.frames t = .post f :: rest)
    (hp' : f.pc ≠ .lock) (hrep : f.isReplay = false) (hdef : f.isDefault = true) {j : ℕ}
    (hj : j < s.ctx.maxSuberNum.toNat) (hl' : f.lists j = true) {x : ℕ × EvtDesc abi}
    (hx : x ∈ (watch t s'.log).cached) : (f.table j).args.lists x.2 = false := by
  have hdef' : ∀ {g : PostFrame abi}, f.pOptions = g.pOptions → g.isDefault = true := fun ho => by
    unfold PostFrame.isDefault at *
    rwa [← ho]
  cases h.postStep (hT.stack t) hf' with
  | called hp => exact absurd hp hp'
  | @locked f₀ env m hf hp hd ht _ _ ho _ hm _ _ hl =>
    rw [hl] at hx
    rw [PostFrame.lists, ht, hd] at hl'
    rw [ht]
    have hne : s.frames t ≠ [] := by simp [hf]
    cases htls : s.tls t with
    | none =>
      rw [hW.quiet (.inl (hT.client_of_tls hne htls))] at hx
      simp at hx
    | some i =>
      have hc : x.2 ∈ (s.suber i).evtCached.contents := by
        rw [hW.contents i (hT.async_of_tls hne htls)]
        exact List.mem_map_of_mem hx
      simp only [noOvertaking, hf, htls, hp, hdef' ho, hm, ne_eq, not_true_eq_false, decide_false, Bool.not_true,
        Option.isNone_some, Bool.false_or, List.all_eq_true, List.mem_range, Bool.or_eq_true, Bool.not_eq_true'] at hok
      exact (hok j hj).resolve_left (by simp [hl']) x.2 hc
  | moved hf hp hd ho ht _ _ _ hr _ hl =>
    rw [hl] at hx
    rw [PostFrame.lists, ht, hd] at hl'
    rw [ht]
    exact hP t _ _ hf hp (hr ▸ hrep) (hdef' ho) j hj hl' x hx
  | accepted hf hp hd ho ht _ _ _ _ _ hr _ hl =>
    rw [watch_accept hl] at hx
    rw [PostFrame.lists, ht, hd] at hl'
    rw [ht]
    exact hP t _ _ hf (by simp [hp]) (hr ▸ hrep) (hdef' ho) j hj hl' x hx
  | returned hf hp _ _ ho =>
    have hk := (hK _ (hf ▸ List.mem_cons_of_mem _ List.mem_cons_self)).inCb _ hp
    rw [hy, (PostFrame.isDefault_iff.mp (hdef' ho)).2.2] at hk
    simp at hk

theorem clearInv_reach (hok : ∀ s x, ok s x → noReuse s x = true) (hok' : ∀ s x, ok s x → noOvertaking s x = true)
    (h : Reach ok maxSuberNum clients s) : ClearInv s :=
  h.induction (fun t f rest hf => by simp [State.init] at hf)
    fun s s' t _ hr hP ha _ h u f rest hf hp hrep hdef j hj hl x hx => by
      rw [h.maxSuberNum_eq] at hj
      have hW := watchInv_reach hok hr u
      by_cases hu : u = t
      · subst hu
        exact clear_self (threadInv_reach hr) hW hP (kind_reach hr u) (isSyncMode_reach hr) (hok' _ _ ha) h hf hp
          hrep hdef hj hl hx
      · rw [h.frames_ne hu] at hf
        rw [h.watch_ne hu hW.storing] at hx
        exact hP u f rest hf hp hrep hdef j hj hl x hx

/-- A fan-out that was refused nowhere has pushed its event for every subscription that lists it. -/
theorem unrefused_accepted (hr : Reach ok maxSuberNum clients s) (hok : ∀ s x, ok s x → noReuse s x = true)
    (hf : s.frames t = .post f :: rest) (hp : f.pc = .loop i) (hi : ¬ i < s.ctx.maxSuberNum.toNat)
    (hy : s.isSync f = false) (hv : ∀ v ∈ f.visits, v.2 ≠ .queue false) {j : ℕ}
    (hl : (s.suber j).args.lists f.pEvtDesc = true) :
    ⟨s.sid j, (watch t s.log).origin f.isReplay, f.pEvtDesc⟩ ∈ (watch t s.log).accepts := by
  have hsteady := steady_of_noReuse hok hr (hf ▸ List.mem_cons_self) hy
  obtain ⟨v, hm⟩ := visited_of_lists hr hsteady hf hp hi hy hl
  refine seenInv_reach hok hr t f rest hf (by simp [hp]) hy j ?_
  have hkind := ((kind_reach hr t f (hf ▸ List.mem_cons_self)).visits _ hm).trans hy
  have hne := hv _ hm
  cases v with
  | queue b =>
    cases b with
    | true => exact hm
    | false => simp at hne
  | callback r => simp [Visit.isCallback] at hkind

/-! ### A posted event from then on -/

/-- An earlier subscription that lists an event after a step did so before. -/
theorem Effect.lists_old (he : Effect s s' t) (hg : g < s.nextSid) {j : ℕ} (hj : s'.sid j = g)
    (hl : (s'.suber j).args.lists d = true) : s.sid j = g ∧ (s.suber j).args.lists d = true := by
  rcases he.live (EvtSubArgs.cb_ne_null_of_lists hl) with ⟨hs, -⟩ | ⟨hs, -, ha⟩
  · omega
  · exact ⟨hs ▸ hj, ha ▸ hl⟩

/-- The event `d` that call number `n` of thread `t` has posted, as subscription `g` sees it: while the subscription
lists the event, it has accepted it or the event is still cached.  A replay that has returned `SUCCESS` has pushed its
event for the subscription. -/
structure PostedInv (t : Tid) (g n : ℕ) (d : EvtDesc abi) (s : State abi) : Prop where
  lt : g < s.nextSid
  kept : ∀ j, s.sid j = g → (s.suber j).args.lists d = true →
    ⟨g, n, d⟩ ∈ (watch t s.log).accepts ∨ (n, d) ∈ (watch t s.log).cached
  drained : ∀ i k p m j, s.base t = .async i k (.drained p .success) →
    (watch t s.log).cached.head? = some (m, p.desc) → s.sid j = g → (s.suber j).args.lists p.desc = true →
      ⟨g, m, p.desc⟩ ∈ (watch t s.log).accepts

/-- A step of the thread itself keeps the event accepted or cached. -/
theorem PostedInv.kept_self (hP : PostedInv t g n d s) (hW : WatchInv s t) (hh : s.halted = none)
    (hw : WatchStep s s' t) (hh' : s'.halted = none) {j : ℕ} (hj : s.sid j = g)
    (hl : (s.suber j).args.lists d = true) :
    ⟨g, n, d⟩ ∈ (watch t s'.log).accepts ∨ (n, d) ∈ (watch t s'.log).cached := by
  have hold := hP.kept j hj hl
  cases hw with
  | same h | returned h =>
    rw [h]
    exact hold
  | stored _ _ _ _ _ h =>
    rw [h]
    exact hold.imp id fun h => List.mem_append_left _ h
  | accepted _ _ h =>
    rw [h]
    exact hold.imp (fun h => List.mem_append_left _ h) id
  | @retired i k p r _ hb hr _ _ h =>
    obtain rfl : r = .success := hr.resolve_right (by simp [hh'])
    obtain ⟨m, hm⟩ := hW.head hh i p (by rw [hb]; rfl)
    obtain ⟨tl, htl⟩ := List.head?_eq_some_iff.mp hm
    rw [h]
    rcases hold with hold | hold
    · exact .inl hold
    · rw [htl] at hold ⊢
      rcases List.mem_cons.mp hold with hold | hold
      · -- the retired event is this one
        obtain ⟨rfl, rfl⟩ := Prod.mk.inj hold
        exact .inl (hP.drained i k p n j hb hm hj hl)
      · exact .inr hold

/-- A replay that returns `SUCCESS` has pushed its event for every subscription that lists it. -/
theorem replay_success (hr : Reach ok maxSuberNum clients s) (hok : ∀ s x, ok s x → noReuse s x = true)
    (hok' : ∀ s x, ok s x → noLoss s x = true) (h : Trans s t a s') (hh' : s'.halted = none) {k m j : ℕ}
    {p : CachedPtr abi} (hb : s'.base t = .async i k (.drained p .success))
    (hm : (watch t s'.log).cached.head? = some (m, p.desc)) (hl : (s'.suber j).args.lists p.desc = true) :
    ⟨s'.sid j, m, p.desc⟩ ∈ (watch t s'.log).accepts := by
  have hT := threadInv_reach hr
  have hW := watchInv_reach hok hr t
  obtain ⟨f, hf, hrep, hd, ho, hb₀, -, hs, hc, ⟨-, hne⟩ | ⟨k, hp, hk, hv⟩⟩ := h.drained_self hT hh' hb
  · exact absurd rfl hne
  · rw [← hd] at hm hl ⊢
    have hloss := lossless_reach hok hok' hr t f (by simp [hf]) hrep
    have hunref : ∀ v ∈ f.visits, v.2 ≠ .queue false := by
      simp only [PostFrame.Lossless, hp] at hloss
      rcases hloss with h | ⟨j, hkj, hj, -⟩ | h
      · exact h
      · rw [maxSuberNum_reach hr] at hk
        omega
      · exact absurd hv.symm h
    rw [State.suber, hc] at hl
    have hacc := unrefused_accepted hr hok hf hp hk (by simp [State.isSync, ho, isSyncMode_reach hr]) hunref hl
    have hsame : (watch t s'.log).cached = (watch t s.log).cached ∧
        (watch t s'.log).accepts = (watch t s.log).accepts := by
      cases h.watchStep (allocInv_reach hr) hW.storing with
      | same h | returned h => exact ⟨by rw [h], by rw [h]⟩
      | stored hf' hp' | accepted hf' hp' =>
        obtain rfl := Frame.post.inj (List.cons.inj (hf'.symm.trans hf)).1
        simp [hp] at hp'
      | retired hf' => simp [hf] at hf'
    rw [hsame.1] at hm
    simpa [hsame.2, hs, hrep, Watch.origin, hm] using hacc

theorem postedInv_trans (hr : Reach ok maxSuberNum clients s) (hok : ∀ s x, ok s x → noReuse s x = true)
    (hok' : ∀ s x, ok s x → noLoss s x = true) (hP : PostedInv t g n d s) (hh : s.halted = none) (h : Trans s u a s')
    (hh' : s'.halted = none) : PostedInv t g n d s' := by
  have hT := threadInv_reach hr
  have hA := allocInv_reach hr
  have hW := watchInv_reach hok hr t
  have he := h.effect hT hA
  refine ⟨hP.lt.trans_le he.nextSid_le, fun j hj hl => ?kept, fun i k p m j hb hm hj hl => ?drained⟩
  case kept =>
    obtain ⟨hj₀, hl₀⟩ := he.lists_old hP.lt hj hl
    by_cases hu : t = u
    · subst hu
      exact hP.kept_self hW hh (h.watchStep hA hW.storing) hh' hj₀ hl₀
    · rw [h.watch_ne hu hW.storing]
      exact hP.kept j hj₀ hl₀
  case drained =>
    by_cases hu : t = u
    · subst hu
      rw [← hj]
      exact replay_success hr hok hok' h hh' hb hm hl
    · obtain ⟨hj₀, hl₀⟩ := he.lists_old hP.lt hj hl
      rw [h.watch_ne hu hW.storing] at hm ⊢
      cases h.base_ne hu with
      | same h₁ => exact hP.drained i k p m j (h₁ ▸ hb) hm hj₀ hl₀
      | created _ _ _ _ h₁ => simp [h₁] at hb
      | woken _ h₁ => simp [h₁] at hb

theorem PostFrame.isReplay_of_default (hS : Stack (s.base t) (.post f :: rest)) (hdef : f.isDefault = true) :
    f.isReplay = false := by
  by_contra hr
  have ho := hS.replay_options (by simpa using hr)
  simp [PostFrame.isDefault, ho] at hdef

/-- A default post that returns `SUCCESS` has pushed its event for every subscription that lists it, or has cached
it. -/
theorem postedInv_of_returns (hr : Reach ok maxSuberNum clients s) (hok : ∀ s x, ok s x → noReuse s x = true)
    (hok' : ∀ s x, ok s x → noLoss s x = true) (h : Trans s t a s') (hh' : s'.halted = none)
    (hret : Returns s s' t (.post f) .success) (hdef : f.isDefault = true) (hg : g < s.nextSid) :
    PostedInv t g (watch t s.log).calls f.pEvtDesc s' := by
  have hT := threadInv_reach hr
  have he := h.effect hT (allocInv_reach hr)
  have hstore := (watchInv_reach hok hr t).storing
  refine ⟨hg.trans_le he.nextSid_le, fun j hj hl => ?kept, fun i k p m j hb hm hj hl => ?drained⟩
  case drained =>
    rw [← hj]
    exact replay_success hr hok hok' h hh' hb hm hl
  case kept =>
    have hrep : f.isReplay = false := by
      have hS := hT.stack t
      rw [hret.top] at hS
      exact PostFrame.isReplay_of_default hS hdef
    obtain ⟨hnb, -, hsync⟩ := PostFrame.isDefault_iff.mp hdef
    rcases h.post_returns hret with ⟨-, -, hcache⟩ | ⟨⟨i, hp, hi⟩, -, hc, hs, hlog⟩
    · obtain ⟨g', hlog⟩ := hcache rfl
      refine .inr ?_
      rw [hlog]
      simp [watch_append, Watch.see]
    · have hmem : Frame.post f ∈ s.frames t := hret.top ▸ List.mem_cons_self
      rw [State.suber, hc] at hl
      have hacc := unrefused_accepted hr hok hret.top hp hi (by simp [State.isSync, hsync, isSyncMode_reach hr])
        (unrefused_reach hr t f hmem hnb) hl
      refine .inl ?_
      rw [hlog, ← hj, hs]
      simpa [watch_append, Watch.see, hrep, Watch.origin] using hacc

/-! ### The law -/

/-- The step is the return, with `SUCCESS`, of a default post of event `d` by thread `t`. -/
def PostSucceeds (s s' : State abi) (t : Tid) (d : EvtDesc abi) : Prop :=
  ∃ f, Returns s s' t (.post f) .success ∧ f.isDefault = true ∧ f.pEvtDesc = d

/-- Thread `t` comes to push the event of its call number `n` into the queue of slot `i`: in a default post, or in a
replay. -/
structure Pushes (s : State abi) (t : Tid) (f : PostFrame abi) (i n : ℕ) : Prop where
  top : ∃ rest, s.frames t = .post f :: rest
  pc : f.pc = .push i
  default : f.isReplay = true ∨ f.isDefault = true
  call : (watch t s.log).origin f.isReplay = n

/-- **The posts of a thread keep their order.**  Let a default post of thread `t` return `SUCCESS`.  Whenever `t` comes
to push the event of a later default post for a subscription that lists the first event and was there when the first
post returned, the subscription has accepted the first event. -/
theorem post_order (hr : Reach orderOk maxSuberNum clients s₁) (hok : orderOk s₁ (t, b))
    (hn : next s₁ (t, b) = some s₁') (hd : PostSucceeds s₁ s₁' t d) (hs : Runs.ReachUnder next orderOk s₁' s)
    (hn' : next s (t, a) = some s') (hp : Pushes s t f i n) (hlt : (watch t s₁.log).calls < n)
    (hl : (s.suber i).args.lists d = true) (hg : s.sid i < s₁.nextSid) :
    ⟨s.sid i, (watch t s₁.log).calls, d⟩ ∈ (watch t s.log).accepts := by
  obtain ⟨f₁, hret, hd, rfl⟩ := hd
  have hreuse : ∀ (s : State abi) x, orderOk s x → noReuse s x = true := fun _ _ h => h.1
  have hloss : ∀ (s : State abi) x, orderOk s x → noLoss s x = true := fun _ _ h => h.2.2
  have hrun : Reach orderOk maxSuberNum clients s ∧
      (s.halted = none → PostedInv t (s.sid i) (watch t s₁.log).calls f₁.pEvtDesc s) := by
    refine hs.invariant (P := fun s₂ => Reach orderOk maxSuberNum clients s₂ ∧
        (s₂.halted = none → PostedInv t (s.sid i) (watch t s₁.log).calls f₁.pEvtDesc s₂))
      ⟨hr.tail _ hok hn, fun hh => postedInv_of_returns hr hreuse hloss (next_trans hn).2 hh hret hd hg⟩
      fun s₂ s₃ x _ hP hx hn₂ => ⟨hP.1.tail _ hx hn₂, fun hh => ?_⟩
    obtain ⟨hr₂, hP⟩ := hP
    obtain ⟨hh₂, h₂⟩ := next_trans hn₂
    exact postedInv_trans hr₂ hreuse hloss (hP hh₂) hh₂ h₂ hh
  obtain ⟨hr', hP⟩ := hrun
  have hh := (next_trans hn').1
  obtain ⟨⟨rest, hf⟩, hpc, hopt, rfl⟩ := hp
  have hT := threadInv_reach hr'
  have hW := watchInv_reach hreuse hr' t
  refine ((hP hh).kept i rfl hl).resolve_right fun hcached => ?_
  cases hrep : f.isReplay with
  | false =>
    -- a direct post passes no cached event
    have hdef : f.isDefault = true := hopt.resolve_left (by simp [hrep])
    have hok := holderInv_reach hr'
    have hpost := hok.post t f rest i hf (by rw [hpc]; rfl)
    have hkept := keptAsync_reach hr'
    have hasync : s.isSync f = true → false = true := fun h => by simp [hpost.async] at h
    have hlists := KeptInv.lists hkept hf (by simp [hpc]) hasync hpost.lt
    have hslot := lists_of_slot hreuse hr' hf (by rw [hpc]; rfl)
    have hclear := clearInv_reach hreuse (fun _ _ h => h.2.1) hr' t f rest hf (by simp [hpc]) hrep hdef i hpost.lt
      (hlists.symm.trans hslot) _ hcached
    rw [← hkept t f rest hf (by simp [hpc]) hasync i hpost.lt, hl] at hclear
    simp at hclear
  | true =>
    -- a replay pushes the first cached event
    have hS := hT.stack t
    rw [hf] at hS
    obtain ⟨-, ⟨hrep', -⟩ | ⟨-, -, k, g, p, hb, -⟩⟩ := hS.of_post
    · simp [hrep] at hrep'
    · obtain ⟨m, hm⟩ := hW.head hh k p (by rw [hb]; rfl)
      obtain ⟨tl, htl⟩ := List.head?_eq_some_iff.mp hm
      have hasc := hW.ascending
      simp only [hrep, Watch.origin, hm, if_true, Option.map_some, Option.getD_some] at hlt
      rw [htl] at hcached hasc
      rcases List.mem_cons.mp hcached with h | h
      · rw [Prod.mk.injEq] at h
        omega
      · have := (List.pairwise_cons.mp hasc).1 _ h
        omega

/-- The test for `PostSucceeds` on a step. -/
def postSucceeds (s s' : State abi) (t : Tid) (d : EvtDesc abi) : Bool :=
  match s.frames t with
  | .post f :: rest =>
    f.isDefault && decide (f.pEvtDesc = d) && (s'.frames t).length == rest.length &&
      s'.log.getLast? == some (.ret t .success)
  | _ => false

theorem postSucceeds_test (hn : next s (t, a) = some s') (h : postSucceeds s s' t d = true) :
    PostSucceeds s s' t d := by
  unfold postSucceeds at h
  split at h
  · rename_i f rest hf
    simp only [Bool.and_eq_true, decide_eq_true_eq, beq_iff_eq] at h
    obtain ⟨⟨⟨hdef, hd⟩, hlen⟩, hlog⟩ := h
    exact ⟨f, ⟨by rw [hf, (next_trans hn).2.frames_popped hf rfl hlen], rfl, hlog⟩, hdef, hd⟩
  · simp at h

/-- Event `7` with the sequence number `1`. -/
def second : EvtDesc lp64 := ⟨⟨1, 0⟩, 7⟩

/-- Runs in which no slot is refilled over a running thread and no replay is lost, but cached events are passed. -/
def passing (s : State abi) (x : Tid × Act abi) : Prop := noReuse s x = true ∧ noLoss s x = true

/-- Runs in which no slot is refilled over a running thread and no cached event is passed, but replays are lost. -/
def losing (s : State abi) (x : Tid × Act abi) : Prop := noReuse s x = true ∧ noOvertaking s x = true

instance (s : State abi) (x : Tid × Act abi) : Decidable (passing s x) := inferInstanceAs (Decidable (_ ∧ _))

instance (s : State abi) (x : Tid × Act abi) : Decidable (losing s x) := inferInstanceAs (Decidable (_ ∧ _))

/-- Thread `t` has posted event `7` with `SUCCESS`, and comes to push the event `second` of a later call for the
subscription in slot `0`, which lists both and was there all the time. -/
structure SecondPush (ok : State lp64 → Tid × Act lp64 → Prop) (maxSuberNum : ULong lp64) (t : Tid)
    (s₁ s₁' s s' : State lp64) : Prop where
  reach : Reach ok maxSuberNum 2 s₁
  step : next s₁ (t, .go) = some s₁'
  succeeds : PostSucceeds s₁ s₁' t (.ofID lp64 7)
  run : Runs.ReachUnder next ok s₁' s
  pushes : ∃ f n, Pushes s t f 0 n ∧ f.pEvtDesc = second ∧ (watch t s₁.log).calls < n
  push : next s (t, .go) = some s'
  lists : (s.suber 0).args.lists (.ofID lp64 7) = true
  live : s.sid 0 < s₁.nextSid

/-- The subscription in slot `0` has accepted event `7` of the call that returns at `s₁`. -/
def acceptedFirst (t : Tid) (s₁ s : State lp64) : Prop :=
  ⟨s.sid 0, (watch t s₁.log).calls, .ofID lp64 7⟩ ∈ (watch t s.log).accepts

instance (t : Tid) (s₁ s : State lp64) : Decidable (acceptedFirst t s₁ s) := inferInstanceAs (Decidable (_ ∈ _))

/-- The test for a `SecondPush`. -/
def secondPush (t : Tid) (s₁ s₁' s : State lp64) : Bool :=
  match s.frames t with
  | .post f :: _ =>
    postSucceeds s₁ s₁' t (.ofID lp64 7) && decide (f.pc = .push 0) && (f.isReplay || f.isDefault) &&
      decide (f.pEvtDesc = second) && decide ((watch t s₁.log).calls < (watch t s.log).origin f.isReplay) &&
      (s.suber 0).args.lists (EvtDesc.ofID lp64 7) && decide (s.sid 0 < s₁.nextSid)
  | _ => false

theorem secondPush_test {ok : State lp64 → Tid × Act lp64 → Prop} {maxSuberNum : ULong lp64}
    {s₁ s₁' s s' : State lp64} (hr : Reach ok maxSuberNum 2 s₁) (hn : next s₁ (t, .go) = some s₁')
    (hs : Runs.ReachUnder next ok s₁' s) (hn' : next s (t, .go) = some s') (h : secondPush t s₁ s₁' s = true) :
    SecondPush ok maxSuberNum t s₁ s₁' s s' := by
  unfold secondPush at h
  split at h
  · rename_i f rest hf
    simp only [Bool.and_eq_true, Bool.or_eq_true, decide_eq_true_eq] at h
    obtain ⟨⟨⟨⟨⟨⟨hd, hp⟩, ho⟩, hsec⟩, hlt⟩, hl⟩, hg⟩ := h
    exact ⟨hr, hn, postSucceeds_test hn hd, hs, ⟨f, _, ⟨⟨rest, hf⟩, hp, ho, rfl⟩, hsec, hlt⟩, hn', hl, hg⟩
  · simp at h

/-- Thread `0` subscribes to event `7` and to event `8`, and posts `8`.  Thread `1` holds the context mutex when the
callback of the second subscription, on thread `2`, posts `7`.  `skips` is the number of slots that follow. -/
def busyCallback (skips : ℕ) : List (Tid × Act lp64) :=
  ([(0, .call (.subEVT ⟨1, 1, some [7]⟩)), (0, .go), (0, .call (.subEVT ⟨2, 2, some [8]⟩)), (0, .go),
   (0, .call (.postEVT (.ofID lp64 8) none)), (0, .go), (0, .go), (0, .go), (0, .go), (0, .signal none)] :
    List (Tid × Act lp64)) ++
  List.replicate (skips + 1) (0, .go) ++
  ([(2, .go), (2, .go), (2, .go), (1, .call (.postEVT (.ofID lp64 9) none)), (1, .go),
   (2, .call (.postEVT (.ofID lp64 7) none))] : List (Tid × Act lp64))

/-- Thread `0` subscribes twice to event `7` and once to `8`, and posts both.  Thread `1` holds the context mutex when
the callback of the third subscription, on thread `4`, posts `7`. -/
def busyCallbackOfTwo : List (Tid × Act lp64) :=
  ([(0, .call (.subEVT ⟨1, 1, some [7]⟩)), (0, .go), (0, .call (.subEVT ⟨2, 2, some [7]⟩)), (0, .go),
   (0, .call (.subEVT ⟨3, 3, some [8]⟩)), (0, .go),
   (0, .call (.postEVT (.ofID lp64 7) none)), (0, .go), (0, .go), (0, .go), (0, .signal none),
   (0, .go), (0, .go), (0, .signal none)] : List (Tid × Act lp64)) ++ List.replicate 31 (0, .go) ++
  ([(0, .call (.postEVT (.ofID lp64 8) none)), (0, .go), (0, .go), (0, .go), (0, .go), (0, .go),
   (0, .signal none)] : List (Tid × Act lp64)) ++ List.replicate 30 (0, .go) ++
  ([(4, .go), (4, .go), (4, .go), (1, .call (.postEVT (.ofID lp64 9) none)), (1, .go),
   (4, .call (.postEVT (.ofID lp64 7) none))] : List (Tid × Act lp64))

/-- The replay of the first event finds the first queue full and the second one with room, and is retired; the replay of
the second event finds the first queue with room. -/
def replayBoth : List (Tid × Act lp64) :=
  List.replicate 33 (1, .go) ++ ([(3, .go), (3, .go), (4, .ret .success), (4, .go), (4, .go), (4, .go), (4, .go),
   (4, .go), (4, .go), (4, .go), (4, .signal none)] : List (Tid × Act lp64)) ++ List.replicate 32 (4, .go) ++
  ([(2, .go), (2, .go), (4, .go), (4, .go), (4, .go), (4, .go)] : List (Tid × Act lp64))

/-- Both posts of a callback return `SUCCESS`, and the second event is pushed for a subscription that has not accepted
the first: when a direct push passes the cached event, and when the replay of the first event, which this subscription
refused, has returned `SUCCESS`. -/
theorem post_overtakes :
    (∃ s₁ s₁' s s' s₂ s₂' : State lp64, SecondPush passing (initMaxSuberNum lp64) 2 s₁ s₁' s s' ∧
      ¬ acceptedFirst 2 s₁ s ∧ Runs.ReachUnder next passing s' s₂ ∧ next s₂ (2, .go) = some s₂' ∧
      PostSucceeds s₂ s₂' 2 second) ∧
    ∃ s₁ s₁' s₂ s₂' s s' : State lp64, SecondPush losing (initMaxSuberNum lp64) 4 s₁ s₁' s s' ∧
      ¬ acceptedFirst 4 s₁ s ∧ Runs.ReachUnder next losing s₁' s₂ ∧ next s₂ (4, .go) = some s₂' ∧
      PostSucceeds s₂ s₂' 4 second ∧ Runs.ReachUnder next losing s₂' s := by
  constructor
  · obtain ⟨s₁, hr, hs⟩ := reach_of_run passing (initMaxSuberNum lp64) 2 (busyCallback 30)
      (fun s₁ => (next s₁ (2, .go)).any fun s₁' =>
        (Runs.runUnder next passing
          (List.replicate 33 (1, .go) ++ [(2, .call (.postEVT second none)), (2, .go), (2, .go)]) s₁').any fun s =>
          (next s (2, .go)).any fun s' =>
            (Runs.runUnder next passing ((2, .signal none) :: List.replicate 31 (2, .go)) s').any fun s₂ =>
              (next s₂ (2, .go)).any fun s₂' => secondPush 2 s₁ s₁' s && decide (¬ acceptedFirst 2 s₁ s) &&
                postSucceeds s₂ s₂' 2 second) (by decide +kernel)
    simp only [Option.any_eq_true, Bool.and_eq_true, decide_eq_true_eq] at hs
    obtain ⟨s₁', hn, s, hrun, s', hn', s₂, hrun₂, s₂', hn₂, ⟨hp, hno⟩, hd₂⟩ := hs
    exact ⟨s₁, s₁', s, s', s₂, s₂', secondPush_test hr hn (Runs.runUnder_reach hrun) hn' hp, hno,
      Runs.runUnder_reach hrun₂, hn₂, postSucceeds_test hn₂ hd₂⟩
  · obtain ⟨s₁, hr, hs⟩ := reach_of_run losing (initMaxSuberNum lp64) 2 busyCallbackOfTwo
      (fun s₁ => (next s₁ (4, .go)).any fun s₁' =>
        (Runs.runUnder next losing [(4, .call (.postEVT second none))] s₁').any fun s₂ =>
          (next s₂ (4, .go)).any fun s₂' => (Runs.runUnder next losing replayBoth s₂').any fun s =>
            (next s (4, .go)).any fun s' => secondPush 4 s₁ s₁' s && decide (¬ acceptedFirst 4 s₁ s) &&
              (postSucceeds s₂ s₂' 4 second && decide (losing s₂ (4, .go)))) (by decide +kernel)
    simp only [Option.any_eq_true, Bool.and_eq_true, decide_eq_true_eq] at hs
    obtain ⟨s₁', hn, s₂, hrun₂, s₂', hn₂, s, hrun, s', hn', ⟨hp, hno⟩, hd₂, hok₂⟩ := hs
    have hs₂ := Runs.runUnder_reach hrun₂
    have hs := Runs.runUnder_reach hrun
    exact ⟨s₁, s₁', s₂, s₂', s, s', secondPush_test hr hn ((hs₂.tail _ hok₂ hn₂).trans hs) hn' hp, hno, hs₂, hn₂,
      postSucceeds_test hn₂ hd₂, hs⟩

/-- Both events are cached and replayed in their order. -/
theorem post_order_cached :
    ∃ s₁ s₁' s s' : State lp64, SecondPush orderOk 2 2 s₁ s₁' s s' ∧ acceptedFirst 2 s₁ s := by
  obtain ⟨s₁, hr, hs⟩ := reach_of_run orderOk (2 : ULong lp64) 2 (busyCallback 0)
    (fun s₁ => (next s₁ (2, .go)).any fun s₁' =>
      (Runs.runUnder next orderOk
        [(2, .call (.postEVT second none)), (2, .go), (1, .go), (1, .go), (1, .go), (2, .ret .success),
          (2, .go), (2, .go), (2, .go), (2, .go), (2, .go), (2, .signal none), (2, .go), (2, .go), (2, .go),
          (3, .go), (3, .go), (2, .go), (2, .go), (2, .go), (2, .go)] s₁').any fun s =>
        (next s (2, .go)).any fun _ => secondPush 2 s₁ s₁' s && decide (orderOk s₁ (2, .go))) (by decide +kernel)
  simp only [Option.any_eq_true, Bool.and_eq_true, decide_eq_true_eq] at hs
  obtain ⟨s₁', hn, s, hrun, s', hn', hp, hok⟩ := hs
  have hpush := secondPush_test hr hn (Runs.runUnder_reach hrun) hn' hp
  obtain ⟨f, n, hpush₁, -, hlt⟩ := hpush.pushes
  exact ⟨s₁, s₁', s, s', hpush,
    post_order hr hok hn hpush.succeeds hpush.run hpush.push hpush₁ hlt hpush.lists hpush.live⟩

end PlatIF.Ioc
