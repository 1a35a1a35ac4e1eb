import PlatIF.Evt.PubTable

/-!
# Concurrent publications

`__PLT_EVT_doPubEvts` tests the rows of the publication table, stores the pointer of a new row and fills it in, without
the lock of the table.  Between the test and the store another thread may store into the same row; and between the store
of the pointer and the last store through it `unpubEvts` may take the row for one of its operator's and free it.

* `PubRun` — a run with the publications that succeeded and were not withdrawn;
* `State.pubsApart` — a row pointer is stored only where there is still none, and no row is freed that is being filled in;
* `publications_kept` — in every run of such steps each publication owns a row of its own.
-/

namespace PlatIF.Evt

variable {abi : Abi} {s s' : State abi} {t : Thread} {a : Act abi} {clients : ℕ}
  {ok : State abi → Thread × Act abi → Prop} {id : EvtOperID abi} {ids : List EvtID} {row pRow : ℕ}

/-! ### Publications along a run -/

/-- A publication that succeeded: the row it was stored in, its operator and its identifiers. -/
structure Publication (abi : Abi) where
  row : ℕ
  evtPuberID : EvtOperID abi
  evtIDs : List EvtID
  deriving DecidableEq

/-- Its row of the table. -/
def Publication.toRow (p : Publication abi) : Row abi := .published p.evtPuberID p.evtIDs

/-- A state with the publications that returned `TOS_RESULT_SUCCESS` and whose operator has not withdrawn since. -/
structure PubRun (abi : Abi) where
  state : State abi
  pubs : List (Publication abi)

/-- A step of the system, followed: a `pubEvts` that fills its row in returns with its last store. -/
def PubRun.next (x : PubRun abi) (y : Thread × Act abi) : Option (PubRun abi) :=
  (Evt.next x.state y).map fun s' =>
    match x.state.calls y.1, s'.calls y.1 with
    | some (.pubEvts id ids (.fill row _ _)), none => ⟨s', ⟨row, id, ids⟩ :: x.pubs⟩
    | some (.unpubEvts id), none => ⟨s', x.pubs.filter fun p => p.evtPuberID != id⟩
    | _, _ => ⟨s', x.pubs⟩

/-- The step stores no row pointer where there is one by now. -/
def State.storesFree (s : State abi) (x : Thread × Act abi) : Bool :=
  match s.calls x.1 with
  | some (.pubEvts _ _ (.store row)) => (s.manger.pubRow row).isNone
  | _ => true

/-- Nor does it free a row that is being filled in. -/
def State.pubsApart (s : State abi) (x : Thread × Act abi) : Bool := s.storesFree x && s.leavesFills x

theorem State.pubsApart_iff {x : Thread × Act abi} :
    s.pubsApart x = true ↔ s.storesFree x = true ∧ s.leavesFills x = true := by
  simp [State.pubsApart]

/-- The runs, followed, whose steps all meet `ok`. -/
def PubRun.Reach (ok : State abi → Thread × Act abi → Bool) (clients : ℕ) (x : PubRun abi) : Prop :=
  Runs.ReachUnder PubRun.next (fun x y => ok x.state y = true) ⟨State.init clients, []⟩ x

/-- **Every publication owns its own row**, which holds its operator and all its identifiers and which nobody fills in
any more. -/
structure PubRun.Kept (x : PubRun abi) : Prop where
  row : ∀ p ∈ x.pubs, ∃ pRow, x.state.manger.pubRow p.row = some (pRow, p.toRow) ∧ ¬ x.state.Fills pRow
  own : x.pubs.Pairwise fun p q => p.row ≠ q.row

/-- A row that is being filled in is in the table, as far as it has come. -/
def FillInv (s : State abi) : Prop :=
  ∀ t id ids row pRow pc, s.calls t = some (.pubEvts id ids (.fill row pRow pc)) →
    s.manger.pubRow row = some (pRow, Row.filled id ids pc)

theorem PubRun.next_eq_some {x x' : PubRun abi} {y : Thread × Act abi} (h : x.next y = some x') :
    Evt.next x.state y = some x'.state := by
  obtain ⟨s', hs, hx⟩ := Option.map_eq_some_iff.mp h
  rw [hs, ← hx]
  split <;> rfl

/-- What the step remembers. -/
theorem PubRun.next_pubs {x x' : PubRun abi} {y : Thread × Act abi} (h : x.next y = some x') :
    (∀ id ids row pRow pc, x.state.calls y.1 = some (.pubEvts id ids (.fill row pRow pc)) →
      x'.state.calls y.1 = none → x'.pubs = ⟨row, id, ids⟩ :: x.pubs) ∧
    (∀ id, x.state.calls y.1 = some (.unpubEvts id) → x'.state.calls y.1 = none →
      x'.pubs = x.pubs.filter fun p => p.evtPuberID != id) ∧
    (x'.state.calls y.1 ≠ none ∨ (x.state.calls y.1).bind Call.filling = none ∧
      (∀ id, x.state.calls y.1 ≠ some (.unpubEvts id)) → x'.pubs = x.pubs) := by
  obtain ⟨s', -, rfl⟩ := Option.map_eq_some_iff.mp h
  split
  · rename_i hc hc'
    refine ⟨fun id ids row pRow pc hc₀ _ => by simp_all, fun id hc₀ => by simp [hc] at hc₀, fun hno => ?_⟩
    simp [hc, hc', Call.filling] at hno
  · rename_i hc hc'
    refine ⟨fun id ids row pRow pc hc₀ => by simp [hc] at hc₀, fun id hc₀ _ => by simp_all, fun hno => ?_⟩
    simp [hc, hc'] at hno
  · rename_i hno hno'
    exact ⟨fun id ids row pRow pc hc hc' => absurd hc' (hno _ _ _ _ _ hc), fun id hc hc' =>
      absurd hc' (hno' _ hc), fun _ => rfl⟩

/-- The store finds the row free. -/
theorem storesFree_row (hok : s.pubsApart (t, a) = true) (hc : s.calls t = some (.pubEvts id ids (.store row))) :
    s.manger.pubRow row = none := by
  simpa [State.storesFree, hc] using (State.pubsApart_iff.mp hok).1

/-- **The rows on their way.** -/
theorem fillInv_step (hr : Reach ok clients s) (hF : FillInv s) (hok : s.pubsApart (t, a) = true)
    (hn : next s (t, a) = some s') : FillInv s' := by
  have htr := (next_trans hn).2
  have hr' : Reach (fun _ _ => True) clients s := hr.mono fun _ _ _ => trivial
  have hI' := pubRows_reach (hr'.tail (t, a) trivial hn)
  intro u id ids row pRow pc hc
  -- how far the row has come, its call says; it is to be shown that it is there
  suffices hfst : (s'.manger.pubRow row).map Prod.fst = some pRow by
    obtain ⟨⟨p, r⟩, hrow, rfl⟩ := Option.map_eq_some_iff.mp hfst
    obtain ⟨-, rfl⟩ := hI'.stands u id ids row _ pc row r hc hrow
    exact hrow
  have hold : ∀ {pc₀}, s.calls u = some (.pubEvts id ids (.fill row pRow pc₀)) →
      (s.manger.pubRow row).map Prod.fst = some pRow := fun hc₀ => by rw [hF u id ids row pRow _ hc₀]; rfl
  cases htr.pubMove (tables_reach hr) with
  | same hp hnext hf hsame =>
    have hc₀ : s.calls u = some (.pubEvts id ids (.fill row pRow pc)) := by
      by_cases hut : u = t
      · subst hut
        rcases hsame with hsame | ⟨-, hno, -⟩
        · exact hsame.symm.trans hc
        · simp [hc, Call.filling] at hno
      · exact (htr.calls_ne hut).symm.trans hc
    rw [hp row]
    exact hold hc₀
  | @stored id₀ ids₀ row₀ hs hs' hm hnext =>
    have hfree := storesFree_row hok hs
    rw [hm]
    by_cases hut : u = t
    · subst hut
      obtain ⟨rfl, rfl, hpc⟩ := Call.pubEvts.inj (Option.some.inj (hs'.symm.trans hc))
      obtain ⟨rfl, rfl, rfl⟩ := PubPc.fill.inj hpc
      rw [Manger.storePubRow_self (pubInv_reach hr u _ _ _ hs).1]
      rfl
    · have hrow := hold ((htr.calls_ne hut).symm.trans hc)
      have hne : row ≠ row₀ := fun h => by simp [h, hfree] at hrow
      rw [Manger.storePubRow_ne hne]
      exact hrow
  | @filled id₀ ids₀ row₀ pRow₀ pc₀ hs hfreed hs' hm hnext =>
    rw [hm, Manger.fillPubRow_fst]
    by_cases hut : u = t
    · subst hut
      obtain ⟨pc', -, heq⟩ := Option.map_eq_some_iff.mp (hs'.symm.trans hc)
      obtain ⟨rfl, rfl, hpc⟩ := Call.pubEvts.inj heq
      obtain ⟨rfl, rfl, rfl⟩ := PubPc.fill.inj hpc
      exact hold hs
    · exact hold ((htr.calls_ne hut).symm.trans hc)
  | @withdrawn id₀ hs hs' hm hnext =>
    have hut : u ≠ t := fun hut => by simp [hut, hs'] at hc
    have hc₀ := (htr.calls_ne hut).symm.trans hc
    have hrow := hF u id ids row pRow pc hc₀
    rw [hm]
    rcases s.manger.unpubEvts_cases id₀ with hsame | ⟨i, x, hx, hi, -, -, -, hrest⟩
    · rw [hsame]
      exact hold hc₀
    · -- the row that goes is another one, since this one is being filled in
      have hx' : pRow ≠ x.1 := fun h =>
        leavesFills_unpub hr (State.pubsApart_iff.mp hok).2 hs hx ⟨u, _, hc₀, by rw [← h]; rfl⟩
      have hne : row ≠ i := fun h => hx' (by rw [h, hi, Option.some.injEq] at hrow; rw [hrow])
      rw [hrest row hne]
      exact hold hc₀

/-- **The publications.** -/
theorem kept_step {x x' : PubRun abi} {y : Thread × Act abi} (hr : Reach ok clients x.state) (hF : FillInv x.state)
    (hK : x.Kept) (hok : x.state.pubsApart y = true) (hn : x.next y = some x') : x'.Kept := by
  have htr := (next_trans (PubRun.next_eq_some hn)).2
  obtain ⟨hfill, hunpub, hsame⟩ := PubRun.next_pubs hn
  have hI := pubRows_reach hr
  have hmove := htr.pubMove (tables_reach hr)
  -- a row that nobody fills in stays so
  have hidle : ∀ {i p r}, x.state.manger.pubRow i = some (p, r) → ¬ x.state.Fills p → ¬ x'.state.Fills p :=
    fun hrow hf => hmove.not_fills hI (fun u hu => htr.calls_ne hu) hrow hf
  cases hmove with
  | same hp hnext hf hcalls =>
    have hpubs : x'.pubs = x.pubs := by
      refine hsame ?_
      rcases hcalls with hcalls | ⟨hno, -, hu⟩
      · cases hc : x.state.calls y.1 with
        | none => exact .inr ⟨rfl, by simp⟩
        | some c => exact .inl (by simp [hcalls, hc])
      · exact .inr ⟨hno, hu⟩
    refine ⟨fun p hp' => ?_, by rw [hpubs]; exact hK.own⟩
    rw [hpubs] at hp'
    obtain ⟨pRow, hrow, hno⟩ := hK.row p hp'
    exact ⟨pRow, (hp p.row).trans hrow, hidle hrow hno⟩
  | @stored id₀ ids₀ row₀ hs hs' hm hnext =>
    have hpubs := hsame (.inl (by simp [hs']))
    have hfree := storesFree_row hok hs
    refine ⟨fun p hp => ?_, by rw [hpubs]; exact hK.own⟩
    rw [hpubs] at hp
    obtain ⟨pRow, hrow, hno⟩ := hK.row p hp
    have hne : p.row ≠ row₀ := fun h => by simp [← h, hrow] at hfree
    exact ⟨pRow, by rw [hm, Manger.storePubRow_ne hne]; exact hrow, hidle hrow hno⟩
  | @filled id₀ ids₀ row₀ pRow₀ pc₀ hs hfreed hs' hm hnext =>
    have hrow₀ := hF _ id₀ ids₀ row₀ pRow₀ pc₀ hs
    -- a publication is filled in, and the row is not
    have hne : ∀ p ∈ x.pubs, p.row ≠ row₀ := by
      intro p hp h
      obtain ⟨pRow, hrow, hno⟩ := hK.row p hp
      rw [h, hrow₀] at hrow
      obtain ⟨rfl, -⟩ := Prod.mk.inj (Option.some.inj hrow)
      exact hno ⟨_, _, hs, rfl⟩
    have hrest : ∀ p ∈ x.pubs, ∃ pRow, x'.state.manger.pubRow p.row = some (pRow, p.toRow) ∧ ¬ x'.state.Fills pRow := by
      intro p hp
      obtain ⟨pRow, hrow, hno⟩ := hK.row p hp
      exact ⟨pRow, by rw [hm, Manger.fillPubRow_ne fun r h => absurd h (hne p hp)]; exact hrow, hidle hrow hno⟩
    cases hlast : pc₀.next ids₀ with
    | some pc' =>
      have hpubs := hsame (.inl (by simp [hs', hlast]))
      refine ⟨fun p hp => hrest p (hpubs ▸ hp), by rw [hpubs]; exact hK.own⟩
    | none =>
      have hdone : x'.state.calls y.1 = none := by rw [hs', hlast]; rfl
      have hpubs := hfill _ _ _ _ _ hs hdone
      constructor
      · intro p hp
        rw [hpubs] at hp
        rcases List.mem_cons.mp hp with rfl | hp
        · refine ⟨pRow₀, ?_, ?_⟩
          · rw [hm, Manger.fillPubRow_self hrow₀, Row.fill_last hlast (pubInv_reach hr _ _ _ _ hs).2.2]
            rfl
          · rintro ⟨u, c, hc, hp⟩
            have hut : u ≠ y.1 := fun h => by simp [h, hdone] at hc
            exact hut (hI.apart u y.1 c _ pRow₀ ((htr.calls_ne hut).symm.trans hc) hs hp rfl)
        · exact hrest p hp
      · rw [hpubs, List.pairwise_cons]
        exact ⟨fun p hp => (hne p hp).symm, hK.own⟩
  | @withdrawn id₀ hs hs' hm hnext =>
    have hpubs := hunpub _ hs hs'
    constructor
    · intro p hp
      rw [hpubs, List.mem_filter, bne_iff_ne] at hp
      obtain ⟨pRow, hrow, hno⟩ := hK.row p hp.1
      have hother : Manger.isPubOf id₀ (pRow, p.toRow) = false := by
        simp [Manger.isPubOf, Publication.toRow, Row.published, hp.2]
      exact ⟨pRow, by rw [hm]; exact Manger.unpubEvts_keeps hother hrow, hidle hrow hno⟩
    · rw [hpubs]
      exact hK.own.filter _

/-- **Publications are not lost.**  In every run, with any number of threads in `pubEvts` and `unpubEvts`, in which no
row pointer is stored where there is one by then and no row is freed that is being filled in: each publication that
succeeded and was not withdrawn owns its own row of the table, with its operator and all its identifiers; and no
`pubEvts` is left with a row that was freed. -/
theorem publications_kept {x : PubRun abi} (h : x.Reach State.pubsApart clients) :
    x.Kept ∧ FillsLive x.state := by
  have hinv : Reach (fun s y => s.leavesFills y = true) clients x.state ∧ FillInv x.state ∧ x.Kept := by
    refine Runs.ReachUnder.invariant (P := fun x : PubRun abi =>
      Reach (fun s y => s.leavesFills y = true) clients x.state ∧ FillInv x.state ∧ x.Kept) ?_ ?_ h
    · refine ⟨.refl, fun t id ids row pRow pc hc => ?_, fun p hp => ?_, .nil⟩
      · simp [State.init] at hc
      · simp at hp
    · intro x x' y _ hP hok hn
      obtain ⟨hr, hF, hK⟩ := hP
      have hn' := PubRun.next_eq_some hn
      exact ⟨hr.tail y (State.pubsApart_iff.mp hok).2 hn', fillInv_step hr hF hok hn', kept_step hr hF hK hok hn⟩
  exact ⟨hinv.2.2, fillsLive_reach hinv.1⟩

/-- Two operators are registered. -/
def twoOperators : List (Thread × Act lp64) :=
  [(.client 0, .call (.initEvtManger (some ⟨0, 2, 0, 0⟩))), (.client 0, .go),
   (.client 0, .call (.regOper ⟨0⟩)), (.client 0, .go), (.client 0, .go),
   (.client 0, .call (.regOper ⟨1⟩)), (.client 0, .go), (.client 0, .go)]

/-- Both publish at once, and each finds row 0 free before the other stores. -/
def publishedAtOnce : List (Thread × Act lp64) :=
  twoOperators ++
  [(.client 0, .call (.pubEvts 0 [evtIDTestKeepAlive])), (.client 0, .go), (.client 0, .go),
   (.client 1, .call (.pubEvts 1 [evtIDTestKeepAlive])), (.client 1, .go), (.client 1, .go),
   (.client 0, .go), (.client 1, .go)] ++
  List.replicate 4 (.client 0, .go) ++ List.replicate 4 (.client 1, .go)

/-- The publication of the first operator is lost: both calls succeeded, and no row of the table is its. -/
theorem publication_lost :
    ∃ x : PubRun lp64, x.Reach (fun _ _ => true) 2 ∧
      x.pubs = [⟨0, 1, [evtIDTestKeepAlive]⟩, ⟨0, 0, [evtIDTestKeepAlive]⟩] ∧
      (∀ row r, row < x.state.manger.mayPubEvtNumMax.toNat → x.state.manger.pubRow row = some r → r.2.operID ≠ 0) ∧
      ¬ x.Kept := by
  obtain ⟨x, hr, hx⟩ : ∃ x : PubRun lp64, x.Reach (fun _ _ => true) 2 ∧
      (decide (x.pubs = [⟨0, 1, [evtIDTestKeepAlive]⟩, ⟨0, 0, [evtIDTestKeepAlive]⟩]) &&
        (List.range x.state.manger.mayPubEvtNumMax.toNat).all fun row =>
          (x.state.manger.pubRow row).all fun r => decide (r.2.operID ≠ 0)) = true :=
    Runs.exists_reach_of_runUnder publishedAtOnce _ (by decide +kernel)
  simp only [Bool.and_eq_true, decide_eq_true_eq, List.all_eq_true, List.mem_range] at hx
  obtain ⟨hpubs, hrows⟩ := hx
  refine ⟨x, hr, hpubs, fun row r hlt hrow => ?_, fun h => ?_⟩
  · have hall := hrows row hlt
    simpa [hrow] using hall
  · have hown := h.own
    rw [hpubs] at hown
    simp at hown

/-- Operator 1 publishes, and operator 0 withdraws between the stores of its row's role and of its id; the row is freed,
and the next store goes to freed memory. -/
theorem publication_freed :
    ∃ x : PubRun lp64, x.Reach (fun _ _ => true) 2 ∧ x.pubs = [] ∧ x.state.halted = some .useAfterFree := by
  obtain ⟨x, hr, hx⟩ : ∃ x : PubRun lp64, x.Reach (fun _ _ => true) 2 ∧
      decide (x.pubs = [] ∧ x.state.halted = some .useAfterFree) = true :=
    Runs.exists_reach_of_runUnder (twoOperators ++
      (.client 1, .call (.pubEvts 1 [evtIDTestKeepAlive])) :: List.replicate 4 (.client 1, .go) ++
      [(.client 0, .call (.unpubEvts 0)), (.client 0, .go), (.client 1, .go)]) _ (by decide +kernel)
  exact ⟨x, hr, of_decide_eq_true hx⟩

/-- Each finds a row of its own while the other fills its row in. -/
def publishedApart : List (Thread × Act lp64) :=
  twoOperators ++
  [(.client 0, .call (.pubEvts 0 [evtIDTestKeepAlive])), (.client 0, .go), (.client 0, .go), (.client 0, .go),
   (.client 1, .call (.pubEvts 1 [evtIDTestKeepAlive])), (.client 0, .go), (.client 1, .go), (.client 1, .go),
   (.client 0, .go), (.client 1, .go), (.client 1, .go), (.client 0, .go), (.client 1, .go), (.client 0, .go),
   (.client 1, .go), (.client 1, .go), (.client 1, .go)]

/-- Both publications stand. -/
theorem publications_kept_two :
    ∃ x : PubRun lp64, x.pubs = [⟨1, 1, [evtIDTestKeepAlive]⟩, ⟨0, 0, [evtIDTestKeepAlive]⟩] ∧ x.Kept := by
  obtain ⟨x, hr, hx⟩ : ∃ x : PubRun lp64, x.Reach State.pubsApart 2 ∧
      decide (x.pubs = [⟨1, 1, [evtIDTestKeepAlive]⟩, ⟨0, 0, [evtIDTestKeepAlive]⟩]) = true :=
    Runs.exists_reach_of_runUnder publishedApart _ (by decide +kernel)
  exact ⟨x, of_decide_eq_true hx, (publications_kept hr).1⟩

end PlatIF.Evt
