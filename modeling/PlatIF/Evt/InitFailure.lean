import PlatIF.Evt.Rep

/-!
# Initializations that fail

`PLT_EVT_initEvtManger` replaces a limit before it allocates the table for it.  When an allocation fails, the tables are
freed and the limits stay as they were replaced.

* `Manger.keepsLimits` — the call replaces no limit by another one before the allocation that fails;
* `Manger.Unmarked` — a failed call cannot be told from the manager it leaves;
* `init_failure_atomic_iff` — it is so exactly when the call replaces no limit.
-/

namespace PlatIF.Evt

variable {abi : Abi} {s s' : State abi} {t : Thread} {env : Env} {clients : ℕ}
  {ok : State abi → Thread × Act abi → Prop}

namespace Manger

/-- A parameter that leaves the limit as it is: `TOS_EVTPARAM_DEFAULT`, or the limit itself. -/
def keepsLimit {w : ℕ} (param old : BitVec w) : Bool := param == 0 || param == old

theorem keepsLimit_iff {w : ℕ} {param old : BitVec w} : keepsLimit param old = true ↔ limit param old = old := by
  unfold keepsLimit limit
  by_cases h : param = 0
  · simp [h]
  · rw [if_neg h, beq_eq_false_iff_ne.mpr h, Bool.false_or, beq_iff_eq]

/-- No limit is replaced by another one, up to the allocation that fails. -/
def keepsLimits (m : Manger abi) (args : Option EvtMangerModArgs) (env : Env) : Bool :=
  match args with
  | none => true
  | some args =>
    decide (m.state ≠ .uninited) ||
      keepsLimit args.mayRegOperNumMax m.mayRegOperNumMax &&
        (!env.alloc 0 || keepsLimit (args.mayPubEvtNumMax.setWidth 32) m.mayPubEvtNumMax &&
          (!env.alloc 1 || keepsLimit (args.maySubEvtNumMax.setWidth 32) m.maySubEvtNumMax &&
            (!env.alloc 2 || keepsLimit args.mayEvtQueueDepthMax m.mayEvtDescQueueNumMax)))

/-- The four limits. -/
structure AllLimits (m m' : Manger abi) : Prop where
  reg : m'.mayRegOperNumMax = m.mayRegOperNumMax
  pub : m'.mayPubEvtNumMax = m.mayPubEvtNumMax
  sub : m'.maySubEvtNumMax = m.maySubEvtNumMax
  depth : m'.mayEvtDescQueueNumMax = m.mayEvtDescQueueNumMax

/-- A manager `m'` in which nothing tells of a call made in `m`: the state, the tables and the limits, and what every
later call of `initEvtManger` returns and leaves. -/
structure Unmarked (m m' : Manger abi) : Prop where
  state : m'.state = m.state
  noTables : m.state = .uninited → m'.NoTables
  limits : m.AllLimits m'
  later : ∀ args env, m'.initEvtManger args env = m.initEvtManger args env

variable {m m' : Manger abi}

/-- A manager without tables is told by its state and its limits. -/
theorem NoTables.ext (h : m.NoTables) (h' : m'.NoTables) (hs : m'.state = m.state) (hl : m.AllLimits m')
    (hn : m'.mayEvtQueueNumMax = m.mayEvtQueueNumMax) (hf : m'.freedRows = m.freedRows) : m' = m := by
  cases m
  cases m'
  obtain ⟨h1, h2, h3, h4⟩ := h
  obtain ⟨h1', h2', h3', h4'⟩ := h'
  obtain ⟨l1, l2, l3, l4⟩ := hl
  simp only at *
  subst_vars
  rfl

/-- An initialization frees no row. -/
theorem initTables_freedRows (args : EvtMangerModArgs) : (m.initTables args env).2.freedRows = m.freedRows := by
  unfold initTables
  split
  · rfl
  · split
    · rfl
    · split
      · rfl
      · split <;> rfl

/-- Which limits a failed initialization leaves replaced. -/
theorem initTables_keeps (hu : m.state = .uninited) {args : EvtMangerModArgs} {r : TosResult}
    (h : m.initTables args env = (r, m')) (hr : r ≠ .success) :
    m.AllLimits m' ↔ m.keepsLimits (some args) env = true := by
  have hall : m.AllLimits m' ↔ m'.mayRegOperNumMax = m.mayRegOperNumMax ∧ m'.mayPubEvtNumMax = m.mayPubEvtNumMax ∧
      m'.maySubEvtNumMax = m.maySubEvtNumMax ∧ m'.mayEvtDescQueueNumMax = m.mayEvtDescQueueNumMax :=
    ⟨fun ⟨h1, h2, h3, h4⟩ => ⟨h1, h2, h3, h4⟩, fun ⟨h1, h2, h3, h4⟩ => ⟨h1, h2, h3, h4⟩⟩
  rw [hall]
  unfold keepsLimits
  simp only [hu, ne_eq, not_true_eq_false, decide_false, Bool.false_or, Bool.and_eq_true, Bool.or_eq_true,
    Bool.not_eq_true', keepsLimit_iff]
  unfold initTables at h
  -- one case for each of the four allocations
  cases h0 : env.alloc 0 with
  | false =>
    simp only [h0, if_true] at h
    obtain ⟨-, rfl⟩ := Prod.mk.inj h
    simp [freeTables]
  | true =>
    cases h1 : env.alloc 1 with
    | false =>
      simp only [h0, h1, Bool.true_eq_false, if_false, if_true] at h
      obtain ⟨-, rfl⟩ := Prod.mk.inj h
      simp [freeTables]
    | true =>
      cases h2 : env.alloc 2 with
      | false =>
        simp only [h0, h1, h2, Bool.true_eq_false, if_false, if_true] at h
        obtain ⟨-, rfl⟩ := Prod.mk.inj h
        simp [freeTables]
      | true =>
        simp only [h0, h1, h2, Bool.true_eq_false, if_false] at h
        split at h
        · obtain ⟨-, rfl⟩ := Prod.mk.inj h
          simp [freeTables]
        · exact absurd (Prod.mk.inj h).1.symm hr

/-- **A failed call leaves no mark exactly when it replaces no limit.** -/
theorem initEvtManger_unmarked_iff (hT : m.NoTables ∨ m.HasTables) {args : Option EvtMangerModArgs}
    (hr : (m.initEvtManger args env).1 ≠ .success) :
    m.Unmarked (m.initEvtManger args env).2 ↔ m.keepsLimits args env = true := by
  have hstep := m.initEvtManger_step args env
  generalize (m.initEvtManger args env).1 = r at hr hstep
  generalize (m.initEvtManger args env).2 = m' at hstep ⊢
  cases hstep with
  | badState hs =>
    have hkeeps : m.keepsLimits args env = true := by
      cases args <;> simp [keepsLimits, hs]
    exact iff_of_true ⟨rfl, fun hu => absurd hu hs, ⟨rfl, rfl, rfl, rfl⟩, fun _ _ => rfl⟩ hkeeps
  | null | done => exact absurd rfl hr
  | @failed y _ _ hu ha hm =>
    have hN : m.NoTables := hT.resolve_right fun hT => hT.state hu
    obtain ⟨-, hst, h1, h2, h3, h4, hn, -⟩ := initTables_failure m hm hr
    have hN' : m'.NoTables := ⟨h1, h2, h3, h4⟩
    rw [ha, ← initTables_keeps hu hm hr]
    constructor
    · exact fun h => h.limits
    · intro hl
      obtain rfl : m' = m := hN.ext hN' hst hl hn ((congrArg (fun x => x.2.freedRows) hm).symm.trans (initTables_freedRows y))
      exact ⟨rfl, fun _ => hN, hl, fun _ _ => rfl⟩

end Manger

/-- The step of an `initEvtManger`. -/
theorem initEvtManger_next {args : Option EvtMangerModArgs} (hc : s.calls t = some (.initEvtManger args))
    (hn : next s (t, .run env) = some s') :
    s'.manger = (s.manger.initEvtManger args env).2 ∧
      s'.log = s.log ++ [.ret t (some (s.manger.initEvtManger args env).1)] := by
  cases (next_trans hn).2 with
  | table ha hc₀ htab =>
    obtain rfl := Act.run.inj ha
    rw [hc, Option.some.injEq] at hc₀
    subst hc₀
    cases htab with
    | init hw => exact ⟨rfl, rfl⟩
  | life ha hc₀ hl =>
    rw [hc, Option.some.injEq] at hc₀
    subst hc₀
    cases hl
  | halt hh => cases hh <;> simp_all
  | _ => simp_all

/-- **Failed initializations.**  A call of `initEvtManger` that fails, in a reachable state, leaves the manager as it
was, and every later initialization as it would have been, exactly when no parameter that it came to before the
failing allocation replaces a limit by another one. -/
theorem init_failure_atomic_iff (h : Reach ok clients s) {args : Option EvtMangerModArgs} {r : TosResult}
    (hn : next s (t, .run env) = some s') (hret : Returns s s' t (.initEvtManger args) (some r))
    (hr : r ≠ .success) : s.manger.Unmarked s'.manger ↔ s.manger.keepsLimits args env = true := by
  obtain ⟨hm, hlog⟩ := initEvtManger_next hret.call hn
  obtain ⟨os, hos⟩ := hret.result
  have hr' : (s.manger.initEvtManger args env).1 = r := by
    have hlast := congrArg List.getLast? (hlog.symm.trans hos)
    simpa using hlast
  rw [hm]
  exact Manger.initEvtManger_unmarked_iff (tables_reach h) (by rw [hr']; exact hr)

/-- An initialization with a registry of five fails at its first allocation.  A later one with default parameters has a
registry of five instead of sixteen. -/
theorem init_failure_leaks_limit :
    ∃ s s' : State lp64, Reach (fun _ _ => True) 1 s ∧
      next s (.client 0, .run ⟨fun _ => false, 0⟩) = some s' ∧
      Returns s s' (.client 0) (.initEvtManger (some ⟨5, 0, 0, 0⟩)) (some .notEnoughMemory) ∧
      (s.manger.initEvtManger (some ⟨0, 0, 0, 0⟩) {}).2.mayRegOperNumMax = 16 ∧
      (s'.manger.initEvtManger (some ⟨0, 0, 0, 0⟩) {}).2.mayRegOperNumMax = 5 ∧ ¬ s.manger.Unmarked s'.manger := by
  have hr : @Reach lp64 (fun _ _ => True) 1 _ := Runs.ReachUnder.refl.tail
    (.client 0, .call (.initEvtManger (some ⟨5, 0, 0, 0⟩))) trivial rfl
  refine ⟨_, _, hr, rfl, ⟨rfl, rfl, [], rfl⟩, rfl, rfl, fun h => ?_⟩
  have hreg := h.limits.reg
  exact absurd hreg (by decide)

/-- The second allocation of an initialization with default parameters fails. -/
theorem init_failure_atomic_iff_default :
    ∃ s s' : State lp64, Reach (fun _ _ => True) 1 s ∧ next s (.client 0, .run ⟨fun k => k == 0, 0⟩) = some s' ∧
      Returns s s' (.client 0) (.initEvtManger (some ⟨0, 0, 0, 0⟩)) (some .notEnoughMemory) ∧
      s.manger.Unmarked s'.manger := by
  have hr : @Reach lp64 (fun _ _ => True) 1 _ := Runs.ReachUnder.refl.tail
    (.client 0, .call (.initEvtManger (some ⟨0, 0, 0, 0⟩))) trivial rfl
  refine ⟨_, _, hr, rfl, ⟨rfl, rfl, [], rfl⟩, ?_⟩
  have hatomic := init_failure_atomic_iff hr
    (show next _ (.client 0, .run ⟨fun k => k == 0, 0⟩) = some _ from rfl)
    (show Returns _ _ (.client 0) (.initEvtManger (some ⟨0, 0, 0, 0⟩)) (some .notEnoughMemory) from
      ⟨rfl, rfl, [], rfl⟩) (by decide)
  exact hatomic.mpr (by decide)

end PlatIF.Evt
