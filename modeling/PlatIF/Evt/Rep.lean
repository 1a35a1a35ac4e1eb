import PlatIF.Evt.Live

/-!
# The manager's representation

In the initial state there is no table; once initialized, the manager has its four tables with exactly the lengths of
its limits; and there is a queue exactly while it runs, other than in the middle of a call that enables or disables it.

* `Manger.Rep` — the representation of the manager's state by its variables;
* `manger_rep` — it holds in every run without an accepted `initEvtManger(NULL)`;
* `initNull_not_rep`, `init_null_breaks_rep` — such a call sets the state without the tables;
* `tables_reach` — in every run there is no table, or all four with their lengths, from then on with the same limits.
-/

namespace PlatIF.Evt

variable {abi : Abi} {s s' : State abi} {t : Thread} {a : Act abi} {env : Env} {clients : ℕ}

namespace Manger

variable {m m' : Manger abi}

/-- The representation of the manager's state by its variables. -/
structure Rep (m : Manger abi) : Prop where
  regMax : 0 < m.mayRegOperNumMax.toNat
  pubMax : 0 < m.mayPubEvtNumMax.toNat
  subMax : 0 < m.maySubEvtNumMax.toNat
  queueMax : m.mayEvtQueueNumMax = 1
  uninited : m.state = .uninited →
    m.regedOperObjs = none ∧ m.pubTable = none ∧ m.subTable = none ∧ m.evtQueueProcer = none
  inited : m.state ≠ .uninited →
    m.regedOperObjs.map Table.len = some m.mayRegOperNumMax.toNat ∧
      m.pubTable.map Table.len = some m.mayPubEvtNumMax.toNat ∧
      m.subTable.map Table.len = some m.maySubEvtNumMax.toNat ∧
      m.evtQueueProcer.map Table.len = some m.mayEvtQueueNumMax.toNat

theorem Rep.init : (Manger.init : Manger abi).Rep where
  regMax := Nat.zero_lt_succ 15
  pubMax := Nat.zero_lt_succ 15
  subMax := Nat.zero_lt_succ 15
  queueMax := rfl
  uninited _ := ⟨rfl, rfl, rfl, rfl⟩
  inited h := absurd rfl h

theorem Rep.sameShape (h : m.Rep) (hs : m.SameShape m') : m'.Rep where
  regMax := by rw [hs.mayRegOperNumMax]; exact h.regMax
  pubMax := by rw [hs.mayPubEvtNumMax]; exact h.pubMax
  subMax := by rw [hs.maySubEvtNumMax]; exact h.subMax
  queueMax := hs.mayEvtQueueNumMax.trans h.queueMax
  uninited hu := by
    obtain ⟨h1, h2, h3, h4⟩ := h.uninited (hs.state ▸ hu)
    have e1 := hs.regLen
    have e2 := hs.pubLen
    have e3 := hs.subLen
    simp only [h1, h2, h3, Option.map_none, Option.map_eq_none_iff] at e1 e2 e3
    exact ⟨e1, e2, e3, hs.evtQueueProcer.trans h4⟩
  inited hi := by
    rw [hs.regLen, hs.pubLen, hs.subLen, hs.evtQueueProcer, hs.mayRegOperNumMax, hs.mayPubEvtNumMax,
      hs.maySubEvtNumMax, hs.mayEvtQueueNumMax]
    exact h.inited (hs.state ▸ hi)

theorem Rep.initStep {args : Option EvtMangerModArgs} {env : Env} {r : TosResult} (h : m.Rep)
    (hi : InitStep m args env r m') (hnull : args = none → m.state ≠ .uninited) : m'.Rep := by
  cases hi with
  | badState => exact h
  | null hs ha => exact absurd hs (hnull ha)
  | done hs ha hm =>
    rename_i m'
    rw [initTables_success m hm]
    exact {
      regMax := limit_pos h.regMax
      pubMax := limit_pos h.pubMax
      subMax := limit_pos h.subMax
      queueMax := h.queueMax
      uninited := fun hu => by simp at hu
      inited := fun _ => ⟨rfl, rfl, rfl, rfl⟩ }
  | failed hs ha hm hr =>
    obtain ⟨-, hst, h1, h2, h3, h4, hq, hreg, hpub, hsub, -⟩ := initTables_failure m hm hr
    exact {
      regMax := by rw [hreg]; exact limit_pos h.regMax
      pubMax := by rcases hpub with hpub | hpub <;> rw [hpub]; exacts [h.pubMax, limit_pos h.pubMax]
      subMax := by rcases hsub with hsub | hsub <;> rw [hsub]; exacts [h.subMax, limit_pos h.subMax]
      queueMax := hq.trans h.queueMax
      uninited := fun _ => ⟨h1, h2, h3, h4⟩
      inited := fun hi => absurd (hst.trans hs) hi }

/-- An accepted `initEvtManger(NULL)` leaves a manager that is ready and has no tables. -/
theorem initNull_not_rep (h : m.Rep) (hs : m.state = .uninited) : ¬ (m.initEvtManger none env).2.Rep := by
  intro hrep
  have hm : (m.initEvtManger none env).2 = { m with state := .ready } := by simp [initEvtManger, hs]
  rw [hm] at hrep
  have hlen := (hrep.inited (by simp)).1
  simp [(h.uninited hs).1] at hlen

end Manger

/-- The step is not an `initEvtManger(NULL)` that is accepted. -/
def State.noNullInit (s : State abi) (x : Thread × Act abi) : Bool :=
  match s.calls x.1, x.2 with
  | some (.initEvtManger none), .run _ => s.manger.state != .uninited
  | _, _ => true

theorem TableStep.rep {c : Call abi} {m : Manger abi} {n : ℕ} {c' : Option (Call abi)} {os : List (Obs abi)}
    (h : TableStep s t env c m n c' os) (hR : s.manger.Rep) (hc : s.calls t = some c)
    (hok : s.noNullInit (t, .run env) = true) : m.Rep := by
  rcases h.cases with hsame | ⟨args, r, rfl, -, hi⟩ | ⟨-, hs, -, rfl⟩
  · exact hR.sameShape hsame
  · refine hR.initStep hi fun hnull => ?_
    subst hnull
    simpa [State.noNullInit, hc] using hok
  · exact ⟨hR.regMax, hR.pubMax, hR.subMax, hR.queueMax, fun hu => by simp at hu, fun _ => hR.inited (by simp [hs])⟩

/-- The manager gets another state, or its one queue another pointer. -/
theorem Manger.Rep.setQueue {m m' : Manger abi} (h : m.Rep) (hi : m.state ≠ .uninited) (hi' : m'.state ≠ .uninited)
    (hlen : m'.evtQueueProcer.map Table.len = m.evtQueueProcer.map Table.len)
    (hm : m' = { m with state := m'.state, evtQueueProcer := m'.evtQueueProcer }) : m'.Rep := by
  obtain ⟨h1, h2, h3, h4⟩ := h.inited hi
  rw [hm]
  exact ⟨h.regMax, h.pubMax, h.subMax, h.queueMax, fun hu => absurd hu hi', fun _ => ⟨h1, h2, h3, hlen.trans h4⟩⟩

theorem LifeStep.rep {c : Call abi} (hL : LiveInv s) (hR : s.manger.Rep) (hc : s.calls t = some c)
    (h : LifeStep s t c s') : s'.manger.Rep := by
  have hP := hL.phase t c hc
  cases h with
  | enable hw hs hq hf =>
    exact hR.setQueue (by simp [hs]) (by simp [hs]) (by simp [hq, Table.set]) rfl
  | enabled =>
    obtain ⟨hs, -⟩ := hP
    exact hR.setQueue (by simp [hs]) (by simp) rfl rfl
  | clear =>
    obtain ⟨hs, -⟩ := hP
    refine hR.setQueue (by simp [hs]) (by simp [hs]) ?_ rfl
    cases htab : s.manger.evtQueueProcer <;> simp [htab, Table.set]
  | disabled =>
    obtain ⟨hs, -⟩ := hP
    exact hR.setQueue (by simp [hs]) (by simp) rfl rfl
  | initMutex | initCond | create | disable | destroyMutex | destroyCond | free => exact hR

theorem rep_trans (hL : LiveInv s) (hR : s.manger.Rep) (hok : s.noNullInit (t, a) = true) (h : Trans s t a s') :
    s'.manger.Rep := by
  cases h with
  | table ha hc htab =>
    subst ha
    exact htab.rep hR hc hok
  | life ha hc hl => exact hl.rep hL hR hc
  | post | signal => simpa using hR
  | _ => exact hR

/-- **The representation invariant.** -/
theorem manger_rep (hr : Reach (fun s x => s.noNullInit x = true) clients s) :
    s.manger.Rep ∧ (s.Settled → (s.manger.evtQueue ≠ none ↔ s.manger.state = .running)) :=
  ⟨hr.induction (P := fun s => s.manger.Rep) .init
    fun _ _ _ _ hr hR hok _ h => rep_trans (liveInv_reach hr) hR hok h, (liveInv_reach hr).running⟩

/-- `initEvtManger(NULL)` in the initial state returns `TOS_RESULT_SUCCESS`, and the manager is ready without tables. -/
theorem init_null_breaks_rep :
    ∃ s : State lp64, Reach (fun _ _ => True) 1 s ∧ s.log = [.ret (.client 0) (some .success)] ∧
      s.manger.state = .ready ∧ s.manger.regedOperObjs.isNone = true ∧ ¬ s.manger.Rep := by
  obtain ⟨s, hr, hs⟩ := reach_of_run (fun _ _ => True) 1
    [(.client 0, .call (.initEvtManger none)), (.client 0, .go)]
    (fun s : State lp64 => decide (s.log = [.ret (.client 0) (some .success)] ∧ s.manger.state = .ready) &&
      s.manger.regedOperObjs.isNone) (by decide +kernel)
  simp only [Bool.and_eq_true, decide_eq_true_eq] at hs
  obtain ⟨⟨hlog, hst⟩, hreg⟩ := hs
  refine ⟨s, hr, hlog, hst, hreg, fun hR => ?_⟩
  have hlen := (hR.inited (by simp [hst])).1
  simp [Option.isNone_iff_eq_none.mp hreg] at hlen

/-- A run with limits of its own, two of them the default, in which the manager is enabled, disabled and enabled. -/
theorem manger_rep_running : ∃ s : State lp64, s.Settled ∧ s.manger.state = .running ∧ s.manger.evtQueue = some 1 ∧
    s.manger.mayRegOperNumMax = 3 ∧ s.manger.mayPubEvtNumMax = 16 ∧ s.manger.maySubEvtNumMax = 5 ∧
    s.manger.regedOperObjs.map Table.len = some 3 ∧ s.manger.pubTable.map Table.len = some 16 ∧
    s.manger.subTable.map Table.len = some 5 ∧ s.manger.evtQueueProcer.map Table.len = some 1 := by
  obtain ⟨s, hr, hs⟩ := reach_of_run (fun s x => s.noNullInit x = true) 1
    ([(.client 0, .call (.initEvtManger (some ⟨3, 0, 5, 0⟩))), (.client 0, .go)] ++ enabling (.client 0) ++
      [(.procer 0, .go), (.client 0, .call .disableEvtManger), (.client 0, .go), (.procer 0, .cancel)] ++
      List.replicate 5 (.client 0, .go) ++ enabling (.client 0))
    (fun s : State lp64 => decide (s.manger.state = .running ∧ s.manger.evtQueue = some 1 ∧ s.stateWLock = none ∧
      s.manger.mayRegOperNumMax = 3 ∧ s.manger.mayPubEvtNumMax = 16 ∧ s.manger.maySubEvtNumMax = 5))
    (by decide +kernel)
  obtain ⟨hst, hq, hw, h1, h2, h3⟩ := of_decide_eq_true hs
  obtain ⟨hR, hiff⟩ := manger_rep hr
  have hset := (stateLock_reach hr).settled hw
  obtain ⟨l1, l2, l3, l4⟩ := hR.inited (by simp [hst])
  rw [h1] at l1
  rw [h2] at l2
  rw [h3] at l3
  rw [hR.queueMax] at l4
  exact ⟨s, hset, (hiff hset).mp (by simp [hq]), hq, h1, h2, h3, l1, l2, l3, l4⟩

/-! ### With or without tables -/

namespace Manger

variable {m m' : Manger abi}

/-- There is no table. -/
structure NoTables (m : Manger abi) : Prop where
  reg : m.regedOperObjs = none
  pub : m.pubTable = none
  sub : m.subTable = none
  queue : m.evtQueueProcer = none

/-- There are the four tables of an initialization, with the lengths of the limits. -/
structure HasTables (m : Manger abi) : Prop where
  state : m.state ≠ .uninited
  reg : m.regedOperObjs.map Table.len = some m.mayRegOperNumMax.toNat
  pub : m.pubTable.map Table.len = some m.mayPubEvtNumMax.toNat
  sub : m.subTable.map Table.len = some m.maySubEvtNumMax.toNat
  queue : m.evtQueueProcer ≠ none

/-- The limits are the same. -/
structure SameLimits (m m' : Manger abi) : Prop where
  reg : m'.mayRegOperNumMax = m.mayRegOperNumMax
  pub : m'.mayPubEvtNumMax = m.mayPubEvtNumMax
  sub : m'.maySubEvtNumMax = m.maySubEvtNumMax

theorem NoTables.init : (Manger.init : Manger abi).NoTables := ⟨rfl, rfl, rfl, rfl⟩

theorem NoTables.sameShape (h : m.NoTables) (hs : m.SameShape m') : m'.NoTables := by
  have e1 := hs.regLen
  have e2 := hs.pubLen
  have e3 := hs.subLen
  simp only [h.reg, h.pub, h.sub, Option.map_none, Option.map_eq_none_iff] at e1 e2 e3
  exact ⟨e1, e2, e3, hs.evtQueueProcer.trans h.queue⟩

theorem HasTables.sameShape (h : m.HasTables) (hs : m.SameShape m') : m'.HasTables where
  state := by rw [hs.state]; exact h.state
  reg := by rw [hs.regLen, hs.mayRegOperNumMax]; exact h.reg
  pub := by rw [hs.pubLen, hs.mayPubEvtNumMax]; exact h.pub
  sub := by rw [hs.subLen, hs.maySubEvtNumMax]; exact h.sub
  queue := by rw [hs.evtQueueProcer]; exact h.queue

theorem SameShape.limits (hs : m.SameShape m') : m.SameLimits m' :=
  ⟨hs.mayRegOperNumMax, hs.mayPubEvtNumMax, hs.maySubEvtNumMax⟩

theorem NoTables.initStep {args : Option EvtMangerModArgs} {r : TosResult} (h : m.NoTables)
    (hi : InitStep m args env r m') : m'.NoTables ∨ m'.HasTables := by
  cases hi with
  | badState => exact .inl h
  | null => exact .inl ⟨h.reg, h.pub, h.sub, h.queue⟩
  | done hs ha hm =>
    rename_i m'
    rw [initTables_success m hm]
    exact .inr ⟨by simp, rfl, rfl, rfl, by simp⟩
  | failed hs ha hm hr =>
    obtain ⟨-, -, h1, h2, h3, h4, -⟩ := initTables_failure m hm hr
    exact .inl ⟨h1, h2, h3, h4⟩

/-- A manager with tables is not initialized again. -/
theorem HasTables.initStep {args : Option EvtMangerModArgs} {r : TosResult} (h : m.HasTables)
    (hi : InitStep m args env r m') : m' = m := by
  cases hi with
  | badState => rfl
  | null hs | done hs | failed hs => exact absurd hs h.state

end Manger

theorem hasTables_trans (h : Trans s t a s') (hT : s.manger.HasTables) :
    s'.manger.HasTables ∧ s.manger.SameLimits s'.manger := by
  cases h with
  | table ha hc htab =>
    rcases htab.cases with hsame | ⟨args, r, -, -, hi⟩ | ⟨-, -, -, hm⟩
    · exact ⟨hT.sameShape hsame, hsame.limits⟩
    · have hm := hT.initStep hi
      exact ⟨hm ▸ hT, hm ▸ ⟨rfl, rfl, rfl⟩⟩
    · subst hm
      exact ⟨⟨by simp, hT.reg, hT.pub, hT.sub, hT.queue⟩, ⟨rfl, rfl, rfl⟩⟩
  | life ha hc hl =>
    cases hl with
    | enable => exact ⟨⟨hT.state, hT.reg, hT.pub, hT.sub, by simp⟩, ⟨rfl, rfl, rfl⟩⟩
    | clear => exact ⟨⟨hT.state, hT.reg, hT.pub, hT.sub, by simpa using hT.queue⟩, ⟨rfl, rfl, rfl⟩⟩
    | enabled | disabled => exact ⟨⟨by simp, hT.reg, hT.pub, hT.sub, hT.queue⟩, ⟨rfl, rfl, rfl⟩⟩
    | initMutex | initCond | create | disable | destroyMutex | destroyCond | free => exact ⟨hT, ⟨rfl, rfl, rfl⟩⟩
  | post | signal => simpa using ⟨hT, ⟨rfl, rfl, rfl⟩⟩
  | _ => exact ⟨hT, ⟨rfl, rfl, rfl⟩⟩

theorem noTables_trans (h : Trans s t a s') (hN : s.manger.NoTables) :
    s'.manger.NoTables ∨ s'.manger.HasTables := by
  cases h with
  | table ha hc htab =>
    rcases htab.cases with hsame | ⟨args, r, -, -, hi⟩ | ⟨-, -, -, hm⟩
    · exact .inl (hN.sameShape hsame)
    · exact hN.initStep hi
    · subst hm
      exact .inl ⟨hN.reg, hN.pub, hN.sub, hN.queue⟩
  | life ha hc hl =>
    cases hl with
    | enable hw hs hq => simp [hN.queue] at hq
    | clear => exact .inl ⟨hN.reg, hN.pub, hN.sub, by simp [hN.queue]⟩
    | enabled | disabled => exact .inl ⟨hN.reg, hN.pub, hN.sub, hN.queue⟩
    | initMutex | initCond | create | disable | destroyMutex | destroyCond | free => exact .inl hN
  | post | signal => exact .inl (by simpa using hN)
  | _ => exact .inl hN

/-- **All tables or none.** -/
theorem tables_reach {ok : State abi → Thread × Act abi → Prop} (h : Reach ok clients s) :
    s.manger.NoTables ∨ s.manger.HasTables :=
  h.induction (P := fun s => s.manger.NoTables ∨ s.manger.HasTables) (.inl .init) fun _ _ _ _ _ hP _ _ htr => by
    rcases hP with hN | hT
    · exact noTables_trans htr hN
    · exact .inr (hasTables_trans htr hT).1

/-- A manager with a processor has its tables. -/
theorem hasTables_of_alive {ok : State abi → Thread × Act abi → Prop} (h : Reach ok clients s) {q : ℕ}
    (ha : (s.procer q).alive) : s.manger.HasTables := by
  rcases tables_reach h with hN | hT
  · have hq := ((liveInv_reach h).live q ha).1
    simp [State.evtQueue, hN.queue] at hq
  · exact hT

end PlatIF.Evt
