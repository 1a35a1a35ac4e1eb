import PlatIF.Ioc.PostResult
import PlatIF.Ioc.Replay

/-!
# When posting aborts the process

`TOS_abortNotTested` stands on three ways through a post: a timed post that finds a queue full, a failed
`pthread_create`, and a replay that fails for an event that may be dropped.

* `abort_cases` — a step that aborts is one of these, or a failed `calloc` of `subEVT`;
* `pending_reach` — a replay that finds the mutex free, a subscription that lists the event, and after every full
  queue another such subscription, returns `SUCCESS`;
* `post_never_aborts` — the law for every run whose steps are like that.
-/

namespace PlatIF.Ioc

variable {abi : Abi} {s s' : State abi} {t u : Tid} {a : Act abi} {i g n : ℕ} {d : EvtDesc abi}
  {f : PostFrame abi} {r : TosResult} {rest : List (Frame abi)} {ok : State abi → Tid × Act abi → Prop}
  {maxSuberNum : ULong abi} {clients : ℕ}

/-! ### The steps that abort -/

theorem subEVT_abort {c : Ctx abi} {args : EvtSubArgs} {env : Env} (h : subEVT c t args env = .abort) :
    env.calloc = false := by
  unfold subEVT at h
  split at h
  · simp at h
  · split at h
    · simp at h
    · split at h
      · rename_i hc
        simp only [Bool.and_eq_true, Bool.not_eq_true'] at hc
        exact hc.2
      · split at h
        · simp at h
        · split at h <;> simp at h

theorem subStep_halted {f : SubFrame} (h : s.subStep t f rest a = some s') :
    s'.halted = s.halted ∨ ∃ env, a = .run env ∧ env.calloc = false := by
  cases a with
  | run env =>
    simp only [State.subStep] at h
    cases hc : subEVT s.ctx t f.pEvtSubArgs env with
    | blocked => simp [hc] at h
    | abort => exact .inr ⟨env, rfl, subEVT_abort hc⟩
    | ret r c k =>
      cases k <;> simp only [hc, Option.some.injEq] at h <;>
      · subst h
        exact .inl rfl
  | _ => simp [State.subStep] at h

theorem unsubNext_halted {f : UnsubFrame} (x : UnsubNext abi) :
    (s.unsubNext t f rest i x).halted = s.halted := by
  cases x <;> rfl

theorem unsubStep_halted {f : UnsubFrame} (h : s.unsubStep t f rest a = some s') :
    s'.halted = s.halted := by
  unfold State.unsubStep at h
  split at h
  · split at h
    · simp at h
    · split at h <;> obtain rfl := Option.some.inj h <;> rfl
  · obtain rfl := Option.some.inj h
    exact unsubNext_halted _
  · split at h
    · simp at h
    · obtain rfl := Option.some.inj h
      rfl
  · split at h
    · simp at h
    · rename_i s₁ hs₁
      obtain rfl := Option.some.inj h
      obtain ⟨b, rfl, -⟩ := (condSignal_woken hs₁).eq
      rfl
  · split at h
    · obtain rfl := Option.some.inj h
      exact unsubNext_halted _
    · simp at h
  · simp at h

theorem postLock_halted (h : s.postLock t f rest a = some s') : s'.halted = s.halted := by
  unfold State.postLock at h
  split at h
  · split at h <;> obtain rfl := Option.some.inj h <;> simp
  · split at h
    · obtain rfl := Option.some.inj h
      simp
    · split at h
      · simp at h
      · split at h
        · obtain rfl := Option.some.inj h
          unfold State.postCached
          split <;> simp
        · simp at h
  · split at h
    · obtain rfl := Option.some.inj h
      simp
    · simp at h
  · simp at h

theorem postLoop_halted : (s.postLoop t f rest i).halted = s.halted := by
  unfold State.postLoop
  split
  · split
    · split <;> rfl
    · rfl
  · simp

/-- A visit aborts when the thread cannot be created, or when a timed post finds the queue full. -/
theorem postSection_halted {env : Env} (h : s.postSection t f rest i env = some s') :
    s'.halted = s.halted ∨ env.threadCreate = false ∨
      isTimeout f.pOptions = true ∧ (s.suber i).evtQueue.hasRoom = false := by
  have hpush : ∀ (s₁ : State abi) (x : Suber abi), x.evtQueue = (s.suber i).evtQueue →
      (s₁.postPush t f rest i (s.desc t f) x).halted = s₁.halted ∨
        isTimeout f.pOptions = true ∧ (s.suber i).evtQueue.hasRoom = false := fun s₁ x hx => by
    unfold State.postPush
    split
    · exact .inl rfl
    · rename_i hr
      split
      · exact .inl rfl
      · split
        · rename_i ho
          exact .inr ⟨ho, by simpa [hx] using hr⟩
        · exact .inl rfl
  unfold State.postSection at h
  split at h
  · simp at h
  · rename_i x hx
    obtain ⟨-, rfl⟩ := Suber.lock_eq_some hx
    split at h
    · obtain rfl := Option.some.inj h
      exact (hpush s { s.suber i with mutex := some t } rfl).imp id .inr
    · split at h
      · obtain rfl := Option.some.inj h
        exact (hpush (s.spawn i) { s.suber i with mutex := some t, asyncThreadID := some s.nextTid } rfl).imp id .inr
      · rename_i he
        exact .inr (.inl (by simpa using he))

theorem postStep_halted (h : s.postStep t f rest a = some s') :
    s'.halted = s.halted ∨ (∃ env, a = .run env ∧ env.threadCreate = false) ∨
      ∃ i, f.pc = .push i ∧ isTimeout f.pOptions = true ∧ (s.suber i).evtQueue.hasRoom = false := by
  unfold State.postStep at h
  split at h
  · exact .inl (postLock_halted h)
  · obtain rfl := Option.some.inj h
    exact .inl postLoop_halted
  · rename_i i env hp
    rcases postSection_halted h with h | h | h
    · exact .inl h
    · exact .inr (.inl ⟨env, rfl, h⟩)
    · exact .inr (.inr ⟨i, hp, h⟩)
  · split at h
    · simp at h
    · rename_i s₁ hs₁
      obtain rfl := Option.some.inj h
      obtain ⟨b, rfl, -⟩ := (condSignal_woken hs₁).eq
      exact .inl rfl
  · split at h
    · simp at h
    · rename_i s₁ hs₁
      obtain rfl := Option.some.inj h
      obtain ⟨b, rfl, -⟩ := (condSignal_woken hs₁).eq
      exact .inl rfl
  · simp at h

theorem cbReturn_halted {f : CbFrame abi} (h : s.cbReturn t f rest r = some s') : s'.halted = s.halted := by
  unfold State.cbReturn at h
  split at h
  · split at h
    · obtain rfl := Option.some.inj h
      rfl
    · simp at h
  · split at h
    · obtain rfl := Option.some.inj h
      rfl
    · simp at h
  · simp at h

theorem cbWrite_halted {f : CbFrame abi} (h : s.cbWrite t f rest d = some s') : s'.halted = s.halted := by
  unfold State.cbWrite at h
  split at h
  · split at h
    · obtain rfl := Option.some.inj h
      rfl
    · simp at h
  · simp at h

theorem consume_halted (h : s.consume t i g = some s') : s'.halted = s.halted := by
  cases hm : (s.suber i).mutex with
  | some u => simp [State.consume, Suber.lock, hm] at h
  | none =>
    rw [consume_of_mutex hm, Option.some.injEq] at h
    subst h
    split
    · rfl
    · split <;> rfl

/-- The async loop aborts when the replay of an event that may be dropped has failed. -/
theorem asyncStep_halted {pc : AsyncPc abi} (h : s.asyncStep t i g pc a = some s') :
    s'.halted = s.halted ∨ s'.halted = some .nullCall ∨
      ∃ p r, pc = .drained p r ∧ r ≠ .success ∧ ((s.suber i).evtCached.cells p.cell).mayDrop = true := by
  unfold State.asyncStep at h
  split at h
  · obtain rfl := Option.some.inj h
    exact .inl rfl
  · exact .inl (consume_halted h)
  · obtain rfl := Option.some.inj h
    exact .inl rfl
  · exact .inl (consume_halted h)
  · obtain rfl := Option.some.inj h
    unfold State.asyncCall
    split
    · exact .inr (.inl rfl)
    · exact .inl rfl
  · split at h
    · simp at h
    · obtain rfl := Option.some.inj h
      exact .inl rfl
  · obtain rfl := Option.some.inj h
    unfold State.drainNext
    split <;> exact .inl rfl
  · rename_i p r _
    obtain rfl := Option.some.inj h
    unfold State.drainResult
    split
    · exact .inl rfl
    · rename_i hr
      split
      · rename_i hd
        exact .inr (.inr ⟨p, r, rfl, hr, hd⟩)
      · exact .inl rfl
  · simp at h

/-- **The abort sites.** -/
inductive Aborts (s : State abi) (t : Tid) : Act abi → Prop
  | resource {env} (h : (env.calloc && env.threadCreate) = false) : Aborts s t (.run env)
  | timed {b f rest i} (hf : s.frames t = .post f :: rest) (hp : f.pc = .push i)
      (ho : isTimeout f.pOptions = true) (hr : (s.suber i).evtQueue.hasRoom = false) : Aborts s t b
  | mayDrop {b i g p r} (hb : s.base t = .async i g (.drained p r)) (hr : r ≠ .success)
      (hd : ((s.suber i).evtCached.cells p.cell).mayDrop = true) : Aborts s t b

theorem abort_cases (h : next s (t, a) = some s') (hh : s'.halted = some .abort) : Aborts s t a := by
  have h0 := (next_trans h).1
  have hne : s'.halted ≠ s.halted := by simp [hh, h0]
  simp only [next, State.step, h0, Option.isSome_none, Bool.false_eq_true, if_false] at h
  have huser : s.userStep t a ≠ some s' := fun h => by
    cases a <;> simp only [State.userStep, reduceCtorEq, Option.some.injEq] at h
    exact hne (h ▸ rfl)
  split at h
  · split at h
    · simp at h
    · exact absurd h huser
    · rename_i hb
      rcases asyncStep_halted h with h | h | ⟨p, r, rfl, hr, hd⟩
      · exact absurd h hne
      · simp [hh] at h
      · exact .mayDrop hb hr hd
  · split at h
    · exact absurd (cbReturn_halted h) hne
    · exact absurd (cbWrite_halted h) hne
    · exact absurd h huser
  · obtain ⟨env, rfl, he⟩ := (subStep_halted h).resolve_left hne
    exact .resource (by simp [he])
  · exact absurd (unsubStep_halted h) hne
  · rename_i hf
    rcases (postStep_halted h).resolve_left hne with ⟨env, rfl, he⟩ | ⟨i, hp, ho, hr⟩
    · exact .resource (by simp [he])
    · exact .timed hf hp ho hr

/-! ### Replays that succeed -/

/-- A subscription in a slot from `i` on lists the event. -/
def State.listsFrom (s : State abi) (i : ℕ) (d : EvtDesc abi) : Bool :=
  (List.range s.ctx.maxSuberNum.toNat).any fun j => decide (i ≤ j) && (s.suber j).args.lists d

theorem State.listsFrom_iff :
    s.listsFrom i d = true ↔ ∃ j, i ≤ j ∧ j < s.ctx.maxSuberNum.toNat ∧ (s.suber j).args.lists d = true := by
  simp only [State.listsFrom, List.any_eq_true, List.mem_range, Bool.and_eq_true, decide_eq_true_eq]
  exact exists_congr fun j => by tauto

/-- Every resource that the step asks for is granted. -/
def granted (x : Tid × Act abi) : Bool :=
  match x.2 with
  | .run env => env.calloc && env.threadCreate
  | _ => true

/-- The step is not that of a timed post at a full queue. -/
def timedRoom (s : State abi) (x : Tid × Act abi) : Bool :=
  match s.frames x.1 with
  | .post f :: _ =>
    match f.pc with
    | .push i => !isTimeout f.pOptions || (s.suber i).evtQueue.hasRoom
    | _ => true
  | _ => true

/-- The step is not that of a replay of an event that may be dropped which finds the context mutex taken or nobody
to list the event, or which finds the last matching queue full. -/
def dropReplayLands (s : State abi) (x : Tid × Act abi) : Bool :=
  match s.frames x.1 with
  | .post f :: _ =>
    !(f.isReplay && f.pEvtDesc.mayDrop) ||
      match f.pc with
      | .lock => (RecMutex.tryLock s.ctx.mutex x.1).isSome && s.listsFrom 0 f.pEvtDesc
      | .push i => (s.suber i).evtQueue.hasRoom || s.listsFrom (i + 1) f.pEvtDesc
      | _ => true
  | _ => true

/-- The conditions under which posting does not abort.  The last keeps what a replay looks at through its pointer. -/
def abortFree (s : State abi) (x : Tid × Act abi) : Prop :=
  granted x = true ∧ timedRoom s x = true ∧ dropReplayLands s x = true ∧ noReuse s x = true

instance (s : State abi) (x : Tid × Act abi) : Decidable (abortFree s x) :=
  inferInstanceAs (Decidable (_ ∧ _))

/-- The call has succeeded at its last visit, or has a matching subscription ahead. -/
def PostFrame.Pending (n : ℕ) (f : PostFrame abi) : Prop :=
  match f.pc with
  | .loop i => (∃ j, i ≤ j ∧ j < n ∧ f.lists j = true) ∨ f.value = .success
  | .signal _ => f.result = .success
  | _ => True

theorem pending_step (hK : KeptInv false s) (hS : Stack (s.base t) (s.frames t))
    (hD : ∀ f rest, s.frames t = .post f :: rest → s.desc t f = f.pEvtDesc)
    (hV : ∀ p, .post p ∈ s.frames t → p.Kind s.ctx.isSyncMode) (hy : s.ctx.isSyncMode = false)
    (hok : dropReplayLands s (t, a) = true)
    (hP : ∀ p, .post p ∈ s.frames t → p.isReplay = true → p.pEvtDesc.mayDrop = true →
      p.Pending s.ctx.maxSuberNum.toNat) (h : Trans s t a s') :
    ∀ p, .post p ∈ s'.frames t → p.isReplay = true → p.pEvtDesc.mayDrop = true →
      p.Pending s.ctx.maxSuberNum.toNat := by
  refine replay_step hK hS hD hV hy hP h ?fresh ?locked ?skip ?enter ?accept ?full ?retry ?signal
  case fresh => exact fun p hp _ _ => by simp [PostFrame.Pending, hp]
  case locked =>
    intro f rest hf hr _ hp (hd : f.pEvtDesc.mayDrop = true)
    simp only [dropReplayLands, hf, hr, hd, hp, Bool.and_self, Bool.not_true, Bool.false_or, Bool.and_eq_true,
      State.listsFrom_iff] at hok
    exact .inl hok.2
  case skip =>
    intro f i ds hold hp hi hl hd
    have hold := hold hd
    simp only [PostFrame.Pending, hp] at hold
    rcases hold with ⟨j, hij, hj, hlj⟩ | hv
    · refine .inl ⟨j, ?_, hj, hlj⟩
      have hne : j ≠ i := by
        rintro rfl
        simp [hl] at hlj
      omega
    · exact .inr hv
  case enter => exact fun f i ds _ _ _ => trivial
  case accept => exact fun f rest i _ _ _ _ _ _ _ => rfl
  case full =>
    intro f rest i hf hr _ hp hroom hlist (hd : f.pEvtDesc.mayDrop = true)
    simp only [dropReplayLands, hf, hr, hd, hp, hroom, Bool.and_self, Bool.not_true, Bool.false_or,
      State.listsFrom_iff] at hok
    obtain ⟨j, hij, hj, hl⟩ := hok
    exact .inl ⟨j, hij, hj, (hlist j hj).symm.trans hl⟩
  case retry =>
    intro f i pc _ hpc _
    rcases hpc with ⟨-, rfl⟩ | ⟨-, rfl⟩ <;> trivial
  case signal =>
    intro f i hold hp hd
    have hold := hold hd
    simp only [PostFrame.Pending, hp] at hold
    exact .inr (by simpa [PostFrame.value] using hold)

theorem pending_reach (hok : ∀ s x, ok s x → dropReplayLands s x = true)
    (hok' : ∀ s x, ok s x → noReuse s x = true) (h : Reach ok maxSuberNum clients s) :
    ∀ t p, .post p ∈ s.frames t → p.isReplay = true → p.pEvtDesc.mayDrop = true →
      p.Pending maxSuberNum.toNat :=
  h.induction (P := fun s => ∀ t p, .post p ∈ s.frames t → p.isReplay = true → p.pEvtDesc.mayDrop = true →
      p.Pending maxSuberNum.toNat)
    (fun t p hp => by simp [State.init] at hp)
    fun s s' t _ hr hP ha hh h u => by
      by_cases hu : u = t
      · subst hu
        have hK := keptAsync_reach hr
        rw [← maxSuberNum_reach hr] at hP ⊢
        exact pending_step hK ((threadInv_reach hr).stack u) (fun _ _ => desc_of_noReuse hok' hr hh) (kind_reach hr u)
          (isSyncMode_reach hr) (hok _ _ ha) (hP u) h
      · rw [h.frames_ne hu]
        exact hP u

/-- A replay that obtains the context mutex goes on to its fan-out. -/
theorem Trans.lock_obtained (h : Trans s t a s') (hh : s'.halted = none) (hf : s.frames t = .post f :: rest)
    (hp : f.pc = .lock) (hm : (RecMutex.tryLock s.ctx.mutex t).isSome = true) (hal : s.ctx.isAlloced = true) :
    s'.frames t ≠ [] := by
  have hw : ∀ {g r}, s.frames t = .post g :: r → g = f := fun h =>
    Frame.post.inj (List.cons.inj (h.symm.trans hf)).1
  cases h
  case postLock => simp
  case postNotFound ha => simp [hal] at ha
  case postBusy hm' _ | postCache hm' _ _ _ _ | postCacheFull hm' _ _ _ _ => simp [hm'] at hm
  case postEnd hf' hp' _ => simp [hw hf', hp] at hp'
  case halt | haltPush | haltRetire => simp at hh
  case postSignal hf' hp' _ | postRetrySignal hf' hp' _ => simp [hw hf', hp] at hp'
  all_goals simp_all [State.userOnTop]

/-- The drain loop has no failed replay of an event that may be dropped. -/
def DrainedInv (s : State abi) : Prop :=
  ∀ t i g p r, s.base t = .async i g (.drained p r) → p.desc.mayDrop = true → r = .success

theorem drainedInv_trans (hr : Reach abortFree maxSuberNum clients s) (hD : DrainedInv s)
    (hok : abortFree s (t, a)) (h : Trans s t a s') (hh : s'.halted = none) : DrainedInv s' := by
  intro u i g p r hb hd
  have hT := threadInv_reach hr
  by_cases hu : u = t
  · subst hu
    obtain ⟨f, hf, hrep, he, -, -, -, -, -, hpc⟩ := h.drained_self hT hh hb
    rw [← he] at hd
    rcases hpc with ⟨hp, -⟩ | ⟨k, hp, hk, rfl⟩
    · -- the replay has found the mutex free and a subscription, so it did not return
      have hlands := hok.2.2.1
      simp only [dropReplayLands, hf, hrep, hd, hp, Bool.and_self, Bool.not_true, Bool.false_or, Bool.and_eq_true,
        State.listsFrom_iff] at hlands
      obtain ⟨hm, j, -, -, hl⟩ := hlands
      have hal : s.ctx.isAlloced = true := by
        by_contra hal
        rw [(allocInv_reach hr).slot (by simpa using hal) j] at hl
        simp [Suber.zero, EvtSubArgs.lists] at hl
      have hS := (stack_trans hT h).stack u
      rw [hb] at hS
      exact absurd (hS.of_idle trivial) (h.lock_obtained hh hf hp hm hal)
    · have hpend := pending_reach (fun _ _ h => h.2.2.1) (fun _ _ h => h.2.2.2) hr u f (by simp [hf]) hrep hd
      simp only [PostFrame.Pending, hp] at hpend
      rcases hpend with ⟨j, hkj, hj, -⟩ | hv
      · rw [maxSuberNum_reach hr] at hk
        omega
      · exact hv
  · cases h.base_ne hu with
    | same h' => exact hD u i g p r (h' ▸ hb) hd
    | created _ _ _ _ h' => simp [h'] at hb
    | woken _ h' => simp [h'] at hb

/-! ### The law -/

/-- The call has a time limit. -/
def PostFrame.timeLimited (f : PostFrame abi) : Prop :=
  isNonBlock f.pOptions = true ∨ isTimeout f.pOptions = true

/-- The call cannot be accepted: it did not obtain the context mutex, or every matching queue was full. -/
def PostFrame.refused (s : State abi) (t : Tid) (f : PostFrame abi) : Prop :=
  (f.pc = .lock ∧ RecMutex.tryLock s.ctx.mutex t = none) ∨
    (f.pc ≠ .lock ∧ f.visits ≠ [] ∧ ∀ v ∈ f.visits, v.2 = .queue false)

/-- A call with a time limit that finds the context mutex taken returns `TIMEOUT`. -/
theorem Trans.busy_timeout (h : Trans s t a s') (hret : Returns s s' t (.post f) r) (hl : f.timeLimited)
    (hp : f.pc = .lock) (hm : RecMutex.tryLock s.ctx.mutex t = none) : r = .timeout := by
  cases h.postReturn hret with
  | notFound _ hm' => simp [hm] at hm'
  | busy _ _ hr => exact hr
  | cached _ ho ho' | cacheFull _ ho ho' => rcases hl with hl | hl <;> simp_all
  | ended hp' => simp [hp] at hp'

/-- A call with a time limit that cannot be accepted returns `TIMEOUT`. -/
theorem refused_timeout (hr : Reach ok maxSuberNum clients s) (h : Trans s t a s')
    (hret : Returns s s' t (.post f) r) (hl : f.timeLimited) (hx : f.refused s t) : r = .timeout := by
  rcases hx with ⟨hp, hm⟩ | ⟨hp, hne, hv⟩
  · exact h.busy_timeout hret hl hp hm
  · rcases h.post_returns hret with ⟨hp', -⟩ | ⟨⟨i, hp', -⟩, rfl, -⟩
    · exact absurd hp' hp
    · have hS := sound_reach hr t f (hret.top ▸ List.mem_cons_self)
      simp only [PostFrame.Sound, hp'] at hS
      rw [hS.1, fanOutResult, List.getLast?_eq_some_getLast hne]
      simp [hv _ (List.getLast_mem hne), Visit.outcome]

/-- **Posting does not abort.**  While every timed post finds room, every replay of an event that may be dropped
finds the context mutex free and its last matching queue not full, and no slot is refilled over a running thread, no step
aborts the process; and a call with a time limit that cannot be accepted returns `TIMEOUT`. -/
theorem post_never_aborts (hr : Reach abortFree maxSuberNum clients s) :
    s.halted ≠ some .abort ∧
    ∀ t a s' f r, next s (t, a) = some s' → Returns s s' t (.post f) r → f.timeLimited → f.refused s t →
      r = .timeout := by
  refine ⟨?_, fun t a s' f r hn hret hl hx => refused_timeout hr (next_trans hn).2 hret hl hx⟩
  have hinv : s.halted ≠ some .abort ∧ (s.halted = none → DrainedInv s) := by
    refine Runs.ReachUnder.invariant (P := fun s => s.halted ≠ some .abort ∧ (s.halted = none → DrainedInv s))
      ⟨by simp [State.init], fun _ t i g p r hb => ?_⟩ (fun s s' x hr hD hok hn => ⟨fun hh => ?_, fun hh => ?_⟩) hr
    · exact absurd hb (State.init_base_ne _ _ _ _ _ _)
    · cases x with | mk t a =>
      have hD := hD.2 (next_trans hn).1
      cases abort_cases hn hh with
      | resource h =>
        have := hok.1
        simp [granted, h] at this
      | timed hf hp ho hroom =>
        have := hok.2.1
        simp [timedRoom, hf, hp, ho, hroom] at this
      | mayDrop hb hne hd =>
        rw [cells_of_entry (fun _ _ h => h.2.2.2) hr (next_trans hn).1 (by rw [hb]; rfl)] at hd
        exact hne (hD _ _ _ _ _ hb hd)
    · exact drainedInv_trans hr (hD.2 (next_trans hn).1) hok (next_trans hn).2 hh
  exact hinv.1

/-- A subscription to event `7` whose queue is filled, in the first of 32 slots. -/
def fullQueue : List (Tid × Act lp64) :=
  ([(0, .call (.subEVT ⟨1, 1, some [7]⟩)), (0, .go),
   (0, .call (.postEVT (.ofID lp64 7) none)), (0, .go), (0, .go), (0, .go), (0, .signal none)] :
    List (Tid × Act lp64)) ++
  List.replicate 32 (0, .go)

/-- A post that waits a millisecond at most. -/
def timedPost : Act lp64 := .call (.postEVT (.ofID lp64 7) (some ⟨optIDTimeout, 1000⟩))

/-- Event `7`, which may be dropped. -/
def droppable : EvtDesc lp64 := ⟨⟨0, msgFlagMayDrop⟩, 7⟩

/-- With every resource granted, a timed post to a full queue aborts the process; and so does the drain loop when the
replay of an event that may be dropped finds the context mutex taken. -/
theorem posting_aborts :
    (∃ (s s' : State lp64) (f : PostFrame lp64), Reach (fun _ x => granted x = true) (initMaxSuberNum lp64) 2 s ∧
      s.frames 0 = [.post f] ∧ isTimeout f.pOptions = true ∧ next s (0, .go) = some s' ∧
      s'.halted = some .abort) ∧
    ∃ (s s' : State lp64) (p : CachedPtr lp64), Reach (fun _ x => granted x = true) (initMaxSuberNum lp64) 2 s ∧
      s.base 2 = .async 0 1 (.drained p .timeout) ∧ p.desc.mayDrop = true ∧ next s (2, .go) = some s' ∧
      s'.halted = some .abort := by
  constructor
  · obtain ⟨s, hr, hs⟩ := reach_of_run (fun _ x => granted x = true) (initMaxSuberNum lp64) 2
      (fullQueue ++ [(0, timedPost), (0, .go), (0, .go)])
      (fun s => (s.onlyPost 0).any fun f => (next s (0, .go)).any fun s' =>
        isTimeout f.pOptions && s'.halted == some .abort) (by decide +kernel)
    simp only [Option.any_eq_true, State.onlyPost_eq_some, Bool.and_eq_true, beq_iff_eq] at hs
    obtain ⟨f, hf, s', hn, ho, hh⟩ := hs
    exact ⟨s, s', f, hr, hf, ho, hn, hh⟩
  · obtain ⟨s, hr, hs⟩ := reach_of_run (fun _ x => granted x = true) (initMaxSuberNum lp64) 2
      (fullQueue ++ [(2, .go), (2, .go), (2, .go), (1, .call (.postEVT (.ofID lp64 9) none)), (1, .go),
        (2, .call (.postEVT droppable none)), (2, .go), (2, .ret .success), (2, .go), (2, .go), (2, .go)])
      (fun s => (next s (2, .go)).any fun s' => decide (s.base 2 = .async 0 1 (.drained ⟨0, droppable⟩ .timeout)) &&
        s'.halted == some .abort) (by decide +kernel)
    simp only [Option.any_eq_true, Bool.and_eq_true, beq_iff_eq, decide_eq_true_eq] at hs
    obtain ⟨s', hn, hb, hh⟩ := hs
    exact ⟨s, s', _, hr, hb, by decide, hn, hh⟩

/-- A timed post gives up while another thread holds the context mutex. -/
theorem post_never_aborts_timed :
    ∃ (s s' : State lp64) (f : PostFrame lp64), next s (1, .timeout) = some s' ∧
      Returns s s' 1 (.post f) .timeout ∧ f.timeLimited ∧ f.refused s 1 ∧ s.halted ≠ some .abort ∧
      ∀ r, Returns s s' 1 (.post f) r → r = .timeout := by
  obtain ⟨s, hr, hs⟩ := reach_of_run abortFree (1 : ULong lp64) 2
    [(0, .call (.subEVT ⟨1, 1, some [7]⟩)), (0, .go), (0, .call (.postEVT (.ofID lp64 7) none)), (0, .go),
      (1, timedPost)]
    (fun s => (s.onlyPost 1).any fun f : PostFrame lp64 => (next s (1, .timeout)).any fun s' : State lp64 =>
      isTimeout f.pOptions && decide (f.pc = .lock) && (RecMutex.tryLock s.ctx.mutex 1).isNone &&
      s'.returned 1 .timeout) (by decide +kernel)
  simp only [Option.any_eq_true, State.onlyPost_eq_some, Bool.and_eq_true, decide_eq_true_eq,
    Option.isNone_iff_eq_none] at hs
  obtain ⟨f, hf, s', hn, ⟨⟨ho, hp⟩, hm⟩, hret⟩ := hs
  obtain ⟨habort, htime⟩ := post_never_aborts hr
  have hl : f.timeLimited := .inr ho
  have hx : f.refused s 1 := .inl ⟨hp, hm⟩
  exact ⟨s, s', f, hn, returns_of_returned hf rfl hret, hl, hx, habort,
    fun r hret => htime 1 .timeout s' f r hn hret hl hx⟩

end PlatIF.Ioc
