import PlatIF.Ioc.Slots

/-!
# Which thread works on which slot

* `ownInv_reach` — while no slot is refilled over a running thread, every slot has one thread at most, and it
  works for the subscription in the slot;
* `owned_reach` — while no callback unsubscribes its own subscription, a running thread is the one its slot
  names, and no slot is refilled over a running thread (`OwnedInv.noReuse`).
-/

namespace PlatIF.Ioc

variable {abi : Abi} {s s' : State abi} {t u : Tid} {a : Act abi} {i g : ℕ}
  {rest : List (Frame abi)} {ok : State abi → Tid × Act abi → Prop} {maxSuberNum : ULong abi}
  {clients : ℕ}

/-! ### One thread for a slot -/

/-- Does thread `u` run the async loop of slot `i`. -/
def State.runsOn (s : State abi) (u : Tid) (i : ℕ) : Bool :=
  match s.base u with
  | .async j _ _ => j == i
  | _ => false

theorem State.runsOn_iff : s.runsOn u i = true ↔ s.RunsOn u i := by
  unfold State.runsOn State.RunsOn
  cases s.base u with
  | async j g pc =>
    rw [beq_iff_eq]
    constructor
    · intro h
      exact ⟨g, pc, by rw [h]⟩
    · rintro ⟨_, _, h⟩
      exact (Base.async.inj h).1
  | _ => simp

/-- The step does not refill a slot on which an async thread still runs. -/
def noReuse (s : State abi) (x : Tid × Act abi) : Bool :=
  match s.frames x.1, x.2 with
  | .sub f :: _, .run env =>
    match subEVT s.ctx x.1 f.pEvtSubArgs env with
    | .ret _ _ (some i) => (List.range s.nextTid).all fun u => !s.runsOn u i
    | _ => true
  | _, _ => true

/-- The step is not that of an async thread that joins itself in `unsubEVT`. -/
def noSelfUnsub (s : State abi) (x : Tid × Act abi) : Bool :=
  match s.frames x.1 with
  | .unsub f :: _ =>
    match f.pc with
    | .join i => (s.suber i).asyncThreadID != some x.1
    | _ => true
  | _ => true

/-- Every slot has one running thread at most: the one it names, unless that one has let the slot go
itself.  It works for the subscription in the slot. -/
structure OwnInv (s : State abi) : Prop where
  sid : ∀ u i g pc, s.base u = .async i g pc → g = s.sid i
  owner : ∀ u i, s.RunsOn u i → (s.suber i).asyncThreadID = some u ∨ ¬ (s.suber i).occupied
  unique : ∀ u v i, s.RunsOn u i → s.RunsOn v i → u = v

/-- Under `noReuse` no thread runs on the slot that `subEVT` fills. -/
theorem noReuse_fresh (hA : AllocInv s) (hI : SlotInv s) (hT : ThreadInv s)
    (hok : noReuse s (t, a) = true) (h : Trans s t a s') (hi : s'.sid i = s.nextSid) : ¬ s.RunsOn u i := by
  have hne : s'.sid ≠ s.sid := fun he => by
    have := hI.sid_lt i
    rw [he] at hi
    omega
  cases h
  case subFill env f rest m k hf hm hc hk =>
    obtain rfl : i = k := by
      by_contra hik
      have := hI.sid_lt i
      simp [hik] at hi
      omega
    rintro ⟨g, pc, hb⟩
    have hal : s.ctx.isAlloced = true := by
      by_contra hal
      exact hA.base (by simpa using hal) u i g pc hb
    have hsub : ∃ r c, subEVT s.ctx t f.pEvtSubArgs env = .ret r c (some i) := by
      simp only [subEVT, hm, hc, if_false, hal, Bool.not_true, Bool.false_and, hk]
      cases env.malloc <;> exact ⟨_, _, rfl⟩
    obtain ⟨r, c, hsub⟩ := hsub
    simp only [noReuse, hf, hsub, List.all_eq_true, List.mem_range, Bool.not_eq_true'] at hok
    have hlt : u < s.nextTid := by
      by_contra hge
      simp [(hT.fresh u (Nat.not_lt.mp hge)).1] at hb
    have := hok u hlt
    rw [State.runsOn_iff.mpr ⟨g, pc, hb⟩] at this
    simp at this
  case unsubSignal hw | postSignal hw | postRetrySignal hw =>
    obtain ⟨b, rfl, -⟩ := hw.eq
    exact absurd rfl hne
  case postAccept | postFull | postRetry | haltPush => exact absurd withThread_sid hne
  all_goals exact absurd (by simp) hne

theorem ownInv_trans (hT : ThreadInv s) (hA : AllocInv s) (hH : HolderInv s) (hI : SlotInv s)
    (hO : OwnInv s) (hok : noReuse s (t, a) = true) (h : Trans s t a s') (he : Effect s s' t) :
    OwnInv s' := by
  have hfresh : ∀ {u i}, s.RunsOn u i → s'.sid i ≠ s.nextSid := fun hr hi =>
    noReuse_fresh hA hI hT hok h hi hr
  have hsid : ∀ i, s'.sid i = s.sid i ∨ s'.sid i = s.nextSid ∧ (s'.suber i).Blank := fun i => by
    rcases he.sid with ⟨hs, -⟩ | ⟨k, -, hs, -, hb, -⟩
    · exact .inl (congrFun hs i)
    · by_cases hik : i = k
      · exact .inr ⟨by simp [hs, hik], hik ▸ hb⟩
      · exact .inl (by simp [hs, hik])
  -- a thread that was just started runs on a taken slot that had no thread
  have hstart : ∀ {u i}, (s.suber i).asyncThreadID = none → (s'.suber i).asyncThreadID = some u →
      (s.suber i).occupied := fun {u i} hx hx' => by
    cases he.thread i with
    | same hj => rw [hj, hx] at hx'; simp at hx'
    | letGo hj => simp [hj] at hx'
    | fresh hf hp =>
      exact (hH.post t _ _ i hf (by rw [hp]; rfl)).occupied
  have hnone : ∀ {u i}, s.RunsOn u i → (s.suber i).asyncThreadID = none → ¬ (s.suber i).occupied :=
    fun hr hx => (hO.owner _ _ hr).resolve_left (by simp [hx])
  constructor
  case sid =>
    intro u i g pc hb
    cases h.base_next hT u with
    | same h' =>
      rw [h'] at hb
      rcases hsid i with hs | ⟨hs, -⟩
      · exact (hO.sid u i g pc hb).trans hs.symm
      · exact absurd hs (hfresh ⟨g, pc, hb⟩)
    | moved h₁ h₂ =>
      rw [hb] at h₂
      cases h₂
      rcases hsid i with hs | ⟨hs, -⟩
      · exact (hO.sid u i g _ h₁).trans hs.symm
      · exact absurd hs (hfresh ⟨g, _, h₁⟩)
    | ended _ h₂ => simp [hb] at h₂
    | created _ _ hx' h₂ =>
      rw [hb] at h₂
      cases h₂
      rcases hsid i with hs | ⟨-, hbl⟩
      · exact hs.symm
      · simp [hbl.asyncThreadID] at hx'
  case owner =>
    intro u i hr
    rcases h.runsOn hT hr with hr | ⟨-, hx'⟩
    · rcases hO.owner u i hr with hx | hx
      · cases he.thread i with
        | same hj => exact .inl (hj.trans hx)
        | letGo hj hl =>
          rcases hl with hl | hl | hl
          · exact absurd hl (hfresh hr)
          · exact .inr hl
          · exact absurd hl (hI.thread i u hx).ids
        | fresh _ _ hn => simp [hx] at hn
      · rcases he.sid with ⟨-, -, ho⟩ | ⟨k, -, hs, -, -, hslot⟩
        · exact .inr fun h' => hx (ho i h')
        · have hik : i ≠ k := fun hik => hfresh hr (by simp [hs, hik])
          exact .inr (by rwa [hslot i hik])
    · exact .inl hx'
  case unique =>
    intro u v i hu hv
    rcases h.runsOn hT hu with hu | ⟨hu, hu'⟩ <;> rcases h.runsOn hT hv with hv | ⟨hv, hv'⟩
    · exact hO.unique u v i hu hv
    · exact absurd (hstart hv hv') (hnone hu hv)
    · exact absurd (hstart hu hu') (hnone hv hu)
    · exact Option.some.inj (hu'.symm.trans hv')

theorem ownInv_reach (hok : ∀ s x, ok s x → noReuse s x = true) (h : Reach ok maxSuberNum clients s) :
    OwnInv s := by
  refine h.induction ⟨?_, ?_, ?_⟩ fun _ _ _ _ hr hO ha _ h =>
    ownInv_trans (threadInv_reach hr) (allocInv_reach hr) (holderInv_reach hr) (slotInv_reach hr) hO
      (hok _ _ ha) h (h.effect (threadInv_reach hr) (allocInv_reach hr))
  · exact fun u i g pc hb => absurd hb (State.init_base_ne _ _ u i g pc)
  · exact fun u i hr => absurd hr (State.init_not_runsOn u i)
  · exact fun u v i hr => absurd hr (State.init_not_runsOn u i)

/-! ### No callback unsubscribes its own subscription -/

/-- A running thread is the one its slot names. -/
def OwnedInv (s : State abi) : Prop := ∀ u i, s.RunsOn u i → (s.suber i).asyncThreadID = some u

theorem Effect.freed_at (h : Effect s s' t) (ho : (s.suber i).occupied) (hn : ¬ (s'.suber i).occupied) :
    ∃ f rest, s.frames t = .unsub f :: rest ∧ s.slotStopped t f i := by
  have hkeep : (s'.suber i).args ≠ (s.suber i).args := fun ha => hn (by simpa only [Suber.occupied, ha] using ho)
  cases h.slot i with
  | freed hf hst => exact ⟨_, _, hf, hst⟩
  | filled hfree => exact absurd ho hfree
  | started _ _ h => exact absurd h.args hkeep
  | same h | flagged _ _ _ h | kept _ _ _ h | accepted _ _ _ h | took _ _ h | cached h =>
    exact absurd (by rw [h]) hkeep

/-- A slot that is let go by another thread than its own has no running thread. -/
theorem OwnedInv.stopped (hW : OwnedInv s) (hok : noSelfUnsub s (t, a) = true) {f : UnsubFrame}
    (hf : s.frames t = .unsub f :: rest) (hs : s.slotStopped t f i) : ¬ s.RunsOn u i := by
  intro hr
  have hx := hW u i hr
  rcases hs with ⟨-, -, -, hn⟩ | ⟨hp, hj⟩
  · simp [hx] at hn
  · simp only [noSelfUnsub, hf, hp, hx, bne_iff_ne, ne_eq, Option.some.injEq] at hok
    obtain ⟨g, pc, hb⟩ := hr
    simp [State.joinReady, hx, hok, hb] at hj

theorem ownedInv_trans (hT : ThreadInv s) (hI : SlotInv s) (hW : OwnedInv s)
    (hok : noSelfUnsub s (t, a) = true) (h : Trans s t a s') (he : Effect s s' t) : OwnedInv s' := by
  intro u i hr
  rcases h.runsOn hT hr with hr | ⟨-, hx'⟩
  · have hx := hW u i hr
    have ho := (hI.thread i u hx).occupied
    cases he.thread i with
    | same hj => exact hj.trans hx
    | fresh _ _ hn => simp [hx] at hn
    | letGo _ hl =>
      rcases hl with hl | hl | hl
      · -- a slot that is filled was free
        rcases he.sid with ⟨hs, -⟩ | ⟨k, hfree, hs, -, -, -⟩
        · have := hI.sid_lt i
          rw [hs] at hl
          omega
        · by_cases hik : i = k
          · exact absurd (hik ▸ ho) hfree
          · have := hI.sid_lt i
            simp [hs, hik] at hl
            omega
      · obtain ⟨f, rest, hf, hst⟩ := he.freed_at ho hl
        exact absurd hr (hW.stopped hok hf hst)
      · exact absurd hl (hI.thread i u hx).ids
  · exact hx'

/-- The slot that `subEVT` fills is the first free one. -/
theorem subEVT_filled {c c' : Ctx abi} {args : EvtSubArgs} {env : Env} {r : TosResult}
    (h : subEVT c t args env = .ret r c' (some i)) : c.allocSubers.freeSuberIdx = some i := by
  unfold subEVT at h
  split at h
  · simp at h
  · split at h
    · simp at h
    · split at h
      · simp at h
      · split at h
        · simp at h
        · split at h <;> simp_all

/-- A free slot has no running thread, so it can be refilled. -/
theorem OwnedInv.noReuse (hA : AllocInv s) (hI : SlotInv s) (hW : OwnedInv s) (x : Tid × Act abi) :
    noReuse s x = true := by
  unfold Ioc.noReuse
  split
  · split
    · rename_i hsub
      have hfree := subEVT_filled hsub
      rw [Ctx.allocSubers_eq, hA.allocSubers] at hfree
      have hocc := (Ctx.freeSuberIdx_eq_some hfree).2
      simp only [List.all_eq_true, List.mem_range, Bool.not_eq_true']
      intro u _
      by_contra hr
      have hr' := State.runsOn_iff.mp (by simpa using hr)
      exact hocc (hI.thread _ u (hW u _ hr')).occupied
    · rfl
  · rfl

/-- **Runs without self-unsubscription refill no slot over a running thread.** -/
theorem owned_reach (h : Reach (fun s x => noSelfUnsub s x = true) maxSuberNum clients s) :
    Reach (fun s x => noReuse s x = true) maxSuberNum clients s ∧ OwnedInv s := by
  refine Runs.ReachUnder.strengthen ?_ ?_ ?_ h
  · exact fun u i hr => absurd hr (State.init_not_runsOn u i)
  · exact fun s x hr hW _ => hW.noReuse (allocInv_reach hr) (slotInv_reach hr) x
  · exact fun s s' x hr hW hok hn => ownedInv_trans (threadInv_reach hr) (slotInv_reach hr) hW hok
      (next_trans hn).2 ((next_trans hn).2.effect (threadInv_reach hr) (allocInv_reach hr))

end PlatIF.Ioc
