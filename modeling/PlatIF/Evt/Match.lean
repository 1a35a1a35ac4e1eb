import PlatIF.Evt.Manger

/-!
# Event ids and groups

An event id packs a mask of eight class bits and a mask of twenty-four classmate bits into a word.  An individual event
has one bit of each, a group has any, and stands for the events that have one bit of either in common with it.

* `matchesEvt` — the test of the dispatch loop for one subscribed id;
* `matchesEvt_group` — it takes the classes of a group as one value, not as a set of bits;
* `group_match_iff` — so that it finds the members of a group exactly when the group has one class;
* `multiClass_misses` — the group of the interface comment, with three classes.
-/

namespace PlatIF.Evt

variable {abi : Abi}

/-- The test of the dispatch loop. -/
def matchesEvt (id evtID : EvtID) : Bool :=
  evtIDClass id == evtIDClass evtID && evtIDClassmate id &&& evtIDClassmate evtID != 0

/-- The row is called for the event: one of the words that the loop compares matches. -/
def Row.matchesEvt (r : Row abi) (evtID : EvtID) : Bool :=
  (List.range (r.evtIDs.length + 1)).any fun num => Evt.matchesEvt (r.evtIDAt num) evtID

/-! ### Packing and unpacking -/

theorem getLsbD_eventClassMask (k : ℕ) : eventClassMask.getLsbD k = decide (k < 8) := by
  have hlow : ∀ k : Fin 32, eventClassMask.getLsbD k = decide (k.val < 8) := by decide
  rcases Nat.lt_or_ge k 32 with hk | hk
  · exact hlow ⟨k, hk⟩
  · rw [BitVec.getLsbD_of_ge _ _ hk]
    exact (decide_eq_false (by omega)).symm

theorem getLsbD_eventAllInClass (k : ℕ) : eventAllInClass.getLsbD k = decide (k < 24) := by
  have hlow : ∀ k : Fin 32, eventAllInClass.getLsbD k = decide (k.val < 24) := by decide
  rcases Nat.lt_or_ge k 32 with hk | hk
  · exact hlow ⟨k, hk⟩
  · rw [BitVec.getLsbD_of_ge _ _ hk]
    exact (decide_eq_false (by omega)).symm

/-- `TOS_GET_EVTID_CLASS` takes the classes out again. -/
theorem evtIDClass_makeEvtID (cls mates : BitVec 32) : evtIDClass (makeEvtID cls mates) = cls &&& eventClassMask := by
  refine BitVec.eq_of_getLsbD_eq fun k hk => ?_
  simp only [evtIDClass, makeEvtID, BitVec.getLsbD_and, BitVec.getLsbD_or, BitVec.getLsbD_shiftLeft,
    getLsbD_eventClassMask]
  by_cases h8 : k < 8 <;> simp [h8]

/-- `TOS_GET_EVTID_CLASSMATE` takes the classmates out again. -/
theorem evtIDClassmate_makeEvtID (cls mates : BitVec 32) :
    evtIDClassmate (makeEvtID cls mates) = mates &&& eventAllInClass := by
  refine BitVec.eq_of_getLsbD_eq fun k hk => ?_
  simp only [evtIDClassmate, makeEvtID, BitVec.getLsbD_and, BitVec.getLsbD_or, BitVec.getLsbD_ushiftRight,
    BitVec.getLsbD_shiftLeft, getLsbD_eventClassMask, getLsbD_eventAllInClass]
  by_cases h24 : k < 24
  · have h32 : 8 + k < 32 := by omega
    have h8 : ¬ 8 + k < 8 := by omega
    simp [h24, h32, h8]
  · simp [h24]

/-! ### Groups -/

/-- The bits of a `TOS_MAKE_EVTID_GROUP`. -/
structure EvtGroup where
  classes : BitVec 8
  classmates : BitVec 24
  nonempty : classes ≠ 0

namespace EvtGroup

/-- `TOS_MAKE_EVTID_GROUP`. -/
def evtID (g : EvtGroup) : EvtID := makeEvtID (g.classes.setWidth 32) (g.classmates.setWidth 32)

/-- The individual event with these two bits belongs to the group. -/
def Contains (g : EvtGroup) (cls : Fin 8) (mate : Fin 24) : Prop :=
  g.classes.getLsbD cls = true ∧ g.classmates.getLsbD mate = true

instance (g : EvtGroup) (cls : Fin 8) (mate : Fin 24) : Decidable (g.Contains cls mate) :=
  inferInstanceAs (Decidable (_ ∧ _))

/-- The group has the one class. -/
def OneClass (g : EvtGroup) (cls : Fin 8) : Prop := g.classes = BitVec.twoPow 8 cls

instance (g : EvtGroup) (cls : Fin 8) : Decidable (g.OneClass cls) := inferInstanceAs (Decidable (_ = _))

end EvtGroup

/-- `TOS_MAKE_EVTID` of an individual event. -/
def oneEvtID (cls : Fin 8) (mate : Fin 24) : EvtID := makeEvtID (BitVec.twoPow 32 cls) (BitVec.twoPow 32 mate)

theorem setWidth_and_eventClassMask (x : BitVec 8) : x.setWidth 32 &&& eventClassMask = x.setWidth 32 := by
  refine BitVec.eq_of_getLsbD_eq fun k hk => ?_
  simp only [BitVec.getLsbD_and, BitVec.getLsbD_setWidth, getLsbD_eventClassMask]
  by_cases h8 : k < 8
  · simp [h8]
  · simp [h8, BitVec.getLsbD_of_ge x k (by omega)]

theorem setWidth_and_eventAllInClass (x : BitVec 24) : x.setWidth 32 &&& eventAllInClass = x.setWidth 32 := by
  refine BitVec.eq_of_getLsbD_eq fun k hk => ?_
  simp only [BitVec.getLsbD_and, BitVec.getLsbD_setWidth, getLsbD_eventAllInClass]
  by_cases h24 : k < 24
  · simp [h24]
  · simp [h24, BitVec.getLsbD_of_ge x k (by omega)]

theorem setWidth_twoPow {w i : ℕ} (hi : i < w) :
    (BitVec.twoPow w i).setWidth 32 = BitVec.twoPow 32 i := by
  refine BitVec.eq_of_getLsbD_eq fun k hk => ?_
  simp only [BitVec.getLsbD_setWidth, BitVec.getLsbD_twoPow]
  by_cases hik : i = k
  · subst hik
    simp [hi, hk]
  · simp [hik]

/-- The class of an individual event, and its classmate. -/
theorem oneEvtID_class (cls : Fin 8) (mate : Fin 24) :
    evtIDClass (oneEvtID cls mate) = (BitVec.twoPow 8 cls).setWidth 32 ∧
      evtIDClassmate (oneEvtID cls mate) = BitVec.twoPow 32 mate := by
  refine ⟨?_, ?_⟩
  · rw [oneEvtID, evtIDClass_makeEvtID, ← setWidth_twoPow cls.isLt, setWidth_and_eventClassMask]
  · rw [oneEvtID, evtIDClassmate_makeEvtID, ← setWidth_twoPow mate.isLt,
      setWidth_and_eventAllInClass]

/-- **The test on a group**: the classes are compared as a whole. -/
theorem matchesEvt_group (g : EvtGroup) (cls : Fin 8) (mate : Fin 24) :
    matchesEvt g.evtID (oneEvtID cls mate) = true ↔ g.OneClass cls ∧ g.classmates.getLsbD mate = true := by
  obtain ⟨hcls, hmate⟩ := oneEvtID_class cls mate
  have hclass : evtIDClass g.evtID = g.classes.setWidth 32 := by
    rw [EvtGroup.evtID, evtIDClass_makeEvtID, setWidth_and_eventClassMask]
  have hmates : evtIDClassmate g.evtID = g.classmates.setWidth 32 := by
    rw [EvtGroup.evtID, evtIDClassmate_makeEvtID, setWidth_and_eventAllInClass]
  rw [matchesEvt, hclass, hmates, hcls, hmate, Bool.and_eq_true, beq_iff_eq]
  refine and_congr ?_ ?_
  · -- widening loses nothing
    refine ⟨fun h => ?_, fun h => by rw [h]⟩
    have hback := congrArg (BitVec.setWidth 8) h
    exact show g.classes = BitVec.twoPow 8 cls by simpa [BitVec.setWidth_setWidth_of_le] using hback
  · have h32 : mate.val < 32 := by omega
    rw [BitVec.and_twoPow, BitVec.getLsbD_setWidth]
    simp only [h32, decide_true, Bool.true_and]
    have hne : BitVec.twoPow 32 mate ≠ 0 := fun h => by
      have hbit := congrArg (fun x => BitVec.getLsbD x mate) h
      simp [h32] at hbit
    cases hbit : g.classmates.getLsbD mate with
    | true => simpa using hne
    | false => simp

/-! ### When groups match their members -/

theorem Row.evtIDAt_of_lt (r : Row abi) {num : ℕ} (h : num < r.evtIDs.length) : r.evtIDAt num = r.evtIDs[num] := by
  rw [Row.evtIDAt, List.getD_eq_getElem?_getD, List.getElem?_eq_getElem h, Option.getD_some]

theorem Row.evtIDAt_length (r : Row abi) : r.evtIDAt r.evtIDs.length = r.nextWord := by
  rw [Row.evtIDAt, List.getD_eq_getElem?_getD, List.getElem?_eq_none le_rfl, Option.getD_none]

/-- The loop compares the identifiers of the row, and the word behind them. -/
theorem Row.matchesEvt_iff (r : Row abi) (evtID : EvtID) :
    r.matchesEvt evtID = true ↔
      (∃ id ∈ r.evtIDs, Evt.matchesEvt id evtID = true) ∨ Evt.matchesEvt r.nextWord evtID = true := by
  simp only [Row.matchesEvt, List.any_eq_true, List.mem_range]
  constructor
  · rintro ⟨num, hlt, hm⟩
    rcases Nat.lt_or_ge num r.evtIDs.length with hnum | hnum
    · rw [r.evtIDAt_of_lt hnum] at hm
      exact .inl ⟨_, List.getElem_mem hnum, hm⟩
    · obtain rfl : num = r.evtIDs.length := by omega
      rw [r.evtIDAt_length] at hm
      exact .inr hm
  · rintro (⟨id, hid, hm⟩ | hm)
    · obtain ⟨num, hnum, rfl⟩ := List.getElem_of_mem hid
      exact ⟨num, by omega, by rwa [r.evtIDAt_of_lt hnum]⟩
    · exact ⟨r.evtIDs.length, by omega, by rwa [r.evtIDAt_length]⟩

theorem exists_getLsbD {w : ℕ} {x : BitVec w} (h : x ≠ 0) : ∃ i : Fin w, x.getLsbD i = true := by
  by_contra hno
  refine h (BitVec.eq_of_getLsbD_eq fun k hk => ?_)
  have hk' : x.getLsbD k ≠ true := fun hbit => hno ⟨⟨k, hk⟩, hbit⟩
  simpa using hk'

/-- A class of its own. -/
theorem EvtGroup.OneClass.contains_iff {g : EvtGroup} {cls cls' : Fin 8} {mate : Fin 24} (h : g.OneClass cls) :
    g.Contains cls' mate ↔ cls' = cls ∧ g.classmates.getLsbD mate = true := by
  have hbit : g.classes.getLsbD cls' = true ↔ cls' = cls := by
    rw [show g.classes = BitVec.twoPow 8 cls from h, BitVec.getLsbD_twoPow]
    have hlt : cls.val < 8 := cls.isLt
    simp [hlt, Fin.ext_iff, eq_comm]
  rw [EvtGroup.Contains, hbit]

/-- **When a group matches its members.**  The test on one event is right if and only if the event is not in the group,
or the group has the one class; on all events, if and only if the group has one class or no classmate.  And a row of
groups is called for an event of one of them if and only if one of them has the one class, or the word behind the
identifiers happens to match. -/
theorem group_match_iff :
    (∀ (g : EvtGroup) (cls : Fin 8) (mate : Fin 24),
      (matchesEvt g.evtID (oneEvtID cls mate) = true ↔ g.Contains cls mate) ↔
        (g.Contains cls mate → g.OneClass cls)) ∧
    (∀ g : EvtGroup, (∀ cls mate, matchesEvt g.evtID (oneEvtID cls mate) = true ↔ g.Contains cls mate) ↔
      (∃ cls, g.OneClass cls) ∨ g.classmates = 0) ∧
    ∀ (r : Row abi) (groups : List EvtGroup) (cls : Fin 8) (mate : Fin 24),
      (({ r with evtIDs := groups.map EvtGroup.evtID } : Row abi).matchesEvt (oneEvtID cls mate) = true ↔
          ∃ g ∈ groups, g.Contains cls mate) ↔
        ((∃ g ∈ groups, g.Contains cls mate) →
          (∃ g ∈ groups, g.Contains cls mate ∧ g.OneClass cls) ∨
            matchesEvt r.nextWord (oneEvtID cls mate) = true) ∧
        (matchesEvt r.nextWord (oneEvtID cls mate) = true → ∃ g ∈ groups, g.Contains cls mate) := by
  have hone : ∀ (g : EvtGroup) (cls : Fin 8) (mate : Fin 24),
      matchesEvt g.evtID (oneEvtID cls mate) = true ↔ g.Contains cls mate ∧ g.OneClass cls := by
    intro g cls mate
    rw [matchesEvt_group]
    constructor
    · rintro ⟨hcls, hmate⟩
      exact ⟨hcls.contains_iff.mpr ⟨rfl, hmate⟩, hcls⟩
    · rintro ⟨hin, hcls⟩
      exact ⟨hcls, hin.2⟩
  refine ⟨fun g cls mate => ?_, fun g => ?_, fun r groups cls mate => ?_⟩
  · rw [hone]
    exact ⟨fun h hin => (h.mpr hin).2, fun h => ⟨fun hin => hin.1, fun hin => ⟨hin, h hin⟩⟩⟩
  · constructor
    · intro h
      by_cases hm : g.classmates = 0
      · exact .inr hm
      · obtain ⟨cls, hcls⟩ := exists_getLsbD g.nonempty
        obtain ⟨mate, hmate⟩ := exists_getLsbD hm
        exact .inl ⟨cls, ((hone g cls mate).mp ((h cls mate).mpr ⟨hcls, hmate⟩)).2⟩
    · rintro (⟨cls, hcls⟩ | hm) cls' mate
      · rw [hone]
        refine ⟨fun h => h.1, fun hin => ⟨hin, ?_⟩⟩
        rw [(hcls.contains_iff.mp hin).1]
        exact hcls
      · rw [hone]
        refine ⟨fun h => h.1, fun hin => ?_⟩
        have hbit := hin.2
        simp [hm] at hbit
  · rw [Row.matchesEvt_iff]
    simp only [List.mem_map, exists_exists_and_eq_and, hone]
    constructor
    · intro h
      exact ⟨h.mpr, fun hw => h.mp (.inr hw)⟩
    · rintro ⟨hin, hw⟩
      refine ⟨?_, hin⟩
      rintro (⟨g, hg, hc, -⟩ | hm)
      · exact ⟨g, hg, hc⟩
      · exact hw hm

/-- The group of the interface comment: `TOS_EVENT_CLASS_VEHICLE_MAIN | TOS_EVENT_CLASS_VEHICLE_SUB_CHASSIS |
TOS_EVENT_CLASS_VEHICLE_SUB_PALLET` with `TOS_EVENT_ALL_IN_CLASS`. -/
def vehicleGroup : EvtGroup := ⟨0b11100#8, 0xFFFFFF#24, by decide⟩

/-- The event of `TOS_EVENT_CLASS_VEHICLE_MAIN` and `TOS_EVENT_VEHICLE_STATE_TRANSFER` is in the group, and neither the
group nor a row with it alone matches. -/
theorem multiClass_misses :
    vehicleGroup.Contains 2 0 ∧ matchesEvt vehicleGroup.evtID (oneEvtID 2 0) = false ∧
      (⟨.evtSuber, 0, none, [vehicleGroup.evtID], 0⟩ : Row lp64).matchesEvt (oneEvtID 2 0) = false := by
  decide

end PlatIF.Evt
