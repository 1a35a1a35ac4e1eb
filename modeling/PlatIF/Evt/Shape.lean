import PlatIF.Evt.Inversion

/-!
# What the steps on the tables leave alone

* `Manger.SameShape` — what the operations on registry, subscriptions and publications leave alone;
* `InitStep` — what a call of `initEvtManger` does;
* `TableStep.cases` — the steps on the tables are these, initialization, and steps that change nothing.
-/

namespace PlatIF.Evt

variable {abi : Abi} {s : State abi} {t : Thread} {env : Env}

/-- `_mEvtQueueProcer[0]`. -/
abbrev Manger.evtQueue (m : Manger abi) : Option ℕ := m.evtQueueProcer.bind fun tab => tab.entry 0

/-- State, limits and table lengths are the same, and so are the queues. -/
structure Manger.SameShape (m m' : Manger abi) : Prop where
  state : m'.state = m.state
  mayRegOperNumMax : m'.mayRegOperNumMax = m.mayRegOperNumMax
  mayPubEvtNumMax : m'.mayPubEvtNumMax = m.mayPubEvtNumMax
  maySubEvtNumMax : m'.maySubEvtNumMax = m.maySubEvtNumMax
  mayEvtQueueNumMax : m'.mayEvtQueueNumMax = m.mayEvtQueueNumMax
  mayEvtDescQueueNumMax : m'.mayEvtDescQueueNumMax = m.mayEvtDescQueueNumMax
  evtQueueProcer : m'.evtQueueProcer = m.evtQueueProcer
  regLen : m'.regedOperObjs.map Table.len = m.regedOperObjs.map Table.len
  pubLen : m'.pubTable.map Table.len = m.pubTable.map Table.len
  subLen : m'.subTable.map Table.len = m.subTable.map Table.len

namespace Manger

variable (m : Manger abi)

theorem SameShape.refl : m.SameShape m := ⟨rfl, rfl, rfl, rfl, rfl, rfl, rfl, rfl, rfl, rfl⟩

/-- Writing an entry of the registry. -/
theorem SameShape.setReg {tab : Table (EvtOperObj abi)} (h : m.regedOperObjs = some tab) (i : ℕ)
    (x : Option (EvtOperObj abi)) : m.SameShape { m with regedOperObjs := some (tab.set i x) } :=
  ⟨rfl, rfl, rfl, rfl, rfl, rfl, rfl, by simp [h, Table.set], rfl, rfl⟩

/-- Writing a row of the publication table. -/
theorem SameShape.setPub {tab : Table (ℕ × Row abi)} (h : m.pubTable = some tab) (i : ℕ)
    (x : Option (ℕ × Row abi)) (freed : List ℕ) :
    m.SameShape { m with pubTable := some (tab.set i x), freedRows := freed } :=
  ⟨rfl, rfl, rfl, rfl, rfl, rfl, rfl, rfl, by simp [h, Table.set], rfl⟩

/-- Writing a row of the subscription table. -/
theorem SameShape.setSub {tab : Table (Row abi)} (h : m.subTable = some tab) (i : ℕ) (x : Option (Row abi)) :
    m.SameShape { m with subTable := some (tab.set i x) } :=
  ⟨rfl, rfl, rfl, rfl, rfl, rfl, rfl, rfl, rfl, by simp [h, Table.set]⟩

theorem doRegOper_shape (args : EvtOperArgs) (env : Env) : m.SameShape (m.doRegOper args env).2.2 := by
  unfold doRegOper
  split
  · exact .refl m
  · rename_i tab htab
    split
    · exact .refl m
    · split
      · exact .refl m
      · exact .setReg m htab _ _

theorem unregOper_shape (id : EvtOperID abi) : m.SameShape (m.unregOper id) := by
  unfold unregOper
  split
  · exact .refl m
  · rename_i tab htab
    split
    · exact .refl m
    · exact .setReg m htab _ _

theorem doSubEvts_shape (id : EvtOperID abi) (ids : List EvtID) (args : EvtSubArgs) (env : Env) :
    m.SameShape (m.doSubEvts id ids args env).2 := by
  unfold doSubEvts
  split
  · exact .refl m
  · rename_i tab htab
    split
    · exact .refl m
    · split
      · exact .refl m
      · split
        · exact .refl m
        · exact .setSub m htab _ _

theorem unsubEvts_shape (id : EvtOperID abi) : m.SameShape (m.unsubEvts id) := by
  unfold unsubEvts
  split
  · exact .refl m
  · rename_i tab htab
    split
    · exact .refl m
    · exact .setSub m htab _ _

theorem unpubEvts_shape (id : EvtOperID abi) : m.SameShape (m.unpubEvts id) := by
  unfold unpubEvts
  split
  · exact .refl m
  · rename_i tab htab
    split
    · exact .refl m
    · exact .setPub m htab _ _ _

theorem storePubRow_shape (row pRow : ℕ) : m.SameShape (m.storePubRow row pRow) := by
  unfold storePubRow
  split
  · exact .refl m
  · rename_i tab htab
    exact .setPub m htab _ _ _

theorem fillPubRow_shape (row pRow : ℕ) (id : EvtOperID abi) (ids : List EvtID) (pc : FillPc) :
    m.SameShape (m.fillPubRow row pRow id ids pc) := by
  unfold fillPubRow
  split
  · exact .refl m
  · rename_i tab htab
    split
    · exact .refl m
    · split
      · exact .setPub m htab _ _ _
      · exact .refl m

/-! ### The one table that an operation may change -/

theorem doRegOper_only (args : EvtOperArgs) (env : Env) :
    (m.doRegOper args env).2.2 = { m with regedOperObjs := (m.doRegOper args env).2.2.regedOperObjs } := by
  unfold doRegOper
  split
  · rfl
  · split
    · rfl
    · split <;> rfl

theorem unregOper_only (id : EvtOperID abi) :
    m.unregOper id = { m with regedOperObjs := (m.unregOper id).regedOperObjs } := by
  unfold unregOper
  split
  · rfl
  · split <;> rfl

theorem doSubEvts_only (id : EvtOperID abi) (ids : List EvtID) (args : EvtSubArgs) (env : Env) :
    (m.doSubEvts id ids args env).2 = { m with subTable := (m.doSubEvts id ids args env).2.subTable } := by
  unfold doSubEvts
  split
  · rfl
  · split
    · rfl
    · split
      · rfl
      · split <;> rfl

theorem unsubEvts_only (id : EvtOperID abi) : m.unsubEvts id = { m with subTable := (m.unsubEvts id).subTable } := by
  unfold unsubEvts
  split
  · rfl
  · split <;> rfl

theorem unpubEvts_only (id : EvtOperID abi) :
    m.unpubEvts id =
      { m with pubTable := (m.unpubEvts id).pubTable, freedRows := (m.unpubEvts id).freedRows } := by
  unfold unpubEvts
  split
  · rfl
  · split <;> rfl

theorem storePubRow_only (row pRow : ℕ) :
    m.storePubRow row pRow = { m with pubTable := (m.storePubRow row pRow).pubTable } := by
  unfold storePubRow
  split <;> rfl

theorem fillPubRow_only (row pRow : ℕ) (id : EvtOperID abi) (ids : List EvtID) (pc : FillPc) :
    m.fillPubRow row pRow id ids pc = { m with pubTable := (m.fillPubRow row pRow id ids pc).pubTable } := by
  unfold fillPubRow
  split
  · rfl
  · split
    · rfl
    · split <;> rfl

/-! ### Initialization -/

/-- The limits a call of `initEvtManger` with these arguments leaves when all its allocations succeed. -/
theorem initTables_success {args : EvtMangerModArgs} {env : Env} {m' : Manger abi}
    (h : m.initTables args env = (.success, m')) :
    m' = { m with
      mayRegOperNumMax := limit args.mayRegOperNumMax m.mayRegOperNumMax,
      regedOperObjs := some (.calloc (limit args.mayRegOperNumMax m.mayRegOperNumMax).toNat),
      mayPubEvtNumMax := limit (args.mayPubEvtNumMax.setWidth 32) m.mayPubEvtNumMax,
      pubTable := some (.calloc (limit (args.mayPubEvtNumMax.setWidth 32) m.mayPubEvtNumMax).toNat),
      maySubEvtNumMax := limit (args.maySubEvtNumMax.setWidth 32) m.maySubEvtNumMax,
      subTable := some (.calloc (limit (args.maySubEvtNumMax.setWidth 32) m.maySubEvtNumMax).toNat),
      mayEvtDescQueueNumMax := limit args.mayEvtQueueDepthMax m.mayEvtDescQueueNumMax,
      evtQueueProcer := some (.calloc m.mayEvtQueueNumMax.toNat) } := by
  unfold initTables at h
  split at h
  · simp at h
  · split at h
    · simp at h
    · split at h
      · simp at h
      · split at h
        · simp at h
        · simpa using h.symm

/-- A failing initialization leaves no table, and limits that were replaced or not. -/
theorem initTables_failure {args : EvtMangerModArgs} {env : Env} {r : TosResult} {m' : Manger abi}
    (h : m.initTables args env = (r, m')) (hr : r ≠ .success) :
    r = .notEnoughMemory ∧ m'.state = m.state ∧
      m'.regedOperObjs = none ∧ m'.pubTable = none ∧ m'.subTable = none ∧ m'.evtQueueProcer = none ∧
      m'.mayEvtQueueNumMax = m.mayEvtQueueNumMax ∧
      m'.mayRegOperNumMax = limit args.mayRegOperNumMax m.mayRegOperNumMax ∧
      (m'.mayPubEvtNumMax = m.mayPubEvtNumMax ∨
        m'.mayPubEvtNumMax = limit (args.mayPubEvtNumMax.setWidth 32) m.mayPubEvtNumMax) ∧
      (m'.maySubEvtNumMax = m.maySubEvtNumMax ∨
        m'.maySubEvtNumMax = limit (args.maySubEvtNumMax.setWidth 32) m.maySubEvtNumMax) ∧
      (m'.mayEvtDescQueueNumMax = m.mayEvtDescQueueNumMax ∨
        m'.mayEvtDescQueueNumMax = limit args.mayEvtQueueDepthMax m.mayEvtDescQueueNumMax) := by
  unfold initTables at h
  split at h
  · obtain ⟨rfl, rfl⟩ := Prod.mk.inj h
    simp [freeTables]
  · split at h
    · obtain ⟨rfl, rfl⟩ := Prod.mk.inj h
      simp [freeTables]
    · split at h
      · obtain ⟨rfl, rfl⟩ := Prod.mk.inj h
        simp [freeTables]
      · split at h
        · obtain ⟨rfl, rfl⟩ := Prod.mk.inj h
          simp [freeTables]
        · exact absurd (Prod.mk.inj h).1.symm hr

theorem limit_pos {w : ℕ} {param old : BitVec w} (h : 0 < old.toNat) : 0 < (limit param old).toNat := by
  unfold limit
  split
  · exact h
  · rename_i hne
    exact Nat.pos_of_ne_zero fun h0 => hne (BitVec.eq_of_toNat_eq (by simpa using h0))

/-- What a call of `initEvtManger` does. -/
inductive InitStep (m : Manger abi) (args : Option EvtMangerModArgs) (env : Env) : TosResult → Manger abi → Prop
  | badState (hs : m.state ≠ .uninited) : InitStep m args env .badState m
  | null (hs : m.state = .uninited) (ha : args = none) : InitStep m args env .success { m with state := .ready }
  | done {x : EvtMangerModArgs} {m' : Manger abi} (hs : m.state = .uninited) (ha : args = some x)
      (hm : m.initTables x env = (.success, m')) : InitStep m args env .success { m' with state := .ready }
  | failed {x : EvtMangerModArgs} {r : TosResult} {m' : Manger abi} (hs : m.state = .uninited) (ha : args = some x)
      (hm : m.initTables x env = (r, m')) (hr : r ≠ .success) : InitStep m args env r m'

theorem initEvtManger_of_success {x : EvtMangerModArgs} {env : Env} {m' : Manger abi} (hs : m.state = .uninited)
    (hm : m.initTables x env = (.success, m')) :
    m.initEvtManger (some x) env = (.success, { m' with state := .ready }) := by
  simp [initEvtManger, hs, hm]

theorem initEvtManger_of_failure {x : EvtMangerModArgs} {env : Env} {r : TosResult} {m' : Manger abi}
    (hs : m.state = .uninited) (hm : m.initTables x env = (r, m')) (hr : r ≠ .success) :
    m.initEvtManger (some x) env = (r, m') := by
  simp only [initEvtManger, hs, hm, ne_eq, not_true_eq_false, if_false]

theorem initEvtManger_step (args : Option EvtMangerModArgs) (env : Env) :
    InitStep m args env (m.initEvtManger args env).1 (m.initEvtManger args env).2 := by
  by_cases hs : m.state = .uninited
  · cases args with
    | none =>
      simp only [initEvtManger, hs, ne_eq, not_true_eq_false, if_false]
      exact .null hs rfl
    | some x =>
      rcases hm : m.initTables x env with ⟨r, m'⟩
      by_cases hr : r = .success
      · subst hr
        rw [initEvtManger_of_success m hs hm]
        exact .done hs rfl hm
      · rw [initEvtManger_of_failure m hs hm hr]
        exact .failed hs rfl hm hr
  · simp only [initEvtManger, hs, ne_eq, not_false_eq_true, if_true]
    exact .badState hs

end Manger

/-! ### The steps on the tables -/

/-- A step on the tables keeps the shape of the manager, is an initialization, or stops a manager that has no queue. -/
theorem TableStep.cases {c : Call abi} {m : Manger abi} {n : ℕ} {c' : Option (Call abi)} {os : List (Obs abi)}
    (h : TableStep s t env c m n c' os) :
    s.manger.SameShape m ∨
      (∃ args r, c = .initEvtManger args ∧ s.stateWLock = none ∧ Manger.InitStep s.manger args env r m) ∨
      (s.stateWLock = none ∧ s.manger.state = .running ∧ s.evtQueue = none ∧
        m = { s.manger with state := .ready }) := by
  cases h with
  | init hw => exact .inr (.inl ⟨_, _, rfl, hw, Manger.initEvtManger_step _ _ _⟩)
  | disableNone hw hs hq => exact .inr (.inr ⟨hw, hs, hq, rfl⟩)
  | @reg args _ _ _ hm =>
    have hsame := Manger.doRegOper_shape s.manger args env
    rw [hm] at hsame
    exact .inl hsame
  | unreg => exact .inl (Manger.unregOper_shape _ _)
  | sub hl => exact .inl (Manger.doSubEvts_shape _ _ _ _ _)
  | unsub hl => exact .inl (Manger.unsubEvts_shape _ _)
  | unpub => exact .inl (Manger.unpubEvts_shape _ _)
  | pubStore => exact .inl (Manger.storePubRow_shape _ _ _)
  | pubFill | pubDone => exact .inl (Manger.fillPubRow_shape _ _ _ _ _ _)
  | _ => exact .inl (.refl _)

end PlatIF.Evt
