import PlatIF.Evt.Match
import PlatIF.Evt.Payload

/-!
# What a dispatch calls

`___PLT_EVT_EvtProcer_callEachSuberCbProcEvt` goes through the rows and, in each, through the identifiers, and calls
the callback for every word that matches.  It does not go on to the next row after a call, and it compares one word
more than the row has identifiers.

* `Manger.callEachSuberCbProcEvt` — the calls of the two loops, as a function of table and event;
* `LoopStep` — the loops one comparison at a time, and `LoopStep.calls`, that they make these calls;
* `Trans.dispatchMove` — a step of the system does nothing else to a dispatch;
* `dispatch_once_iff` — when every covered row is called once.
-/

namespace PlatIF.Evt

variable {abi : Abi} {s s' : State abi} {t : Thread} {a : Act abi} {env : Env} {clients q slot k : ℕ}
  {pc pc' : DispatchPc} {ok : State abi → Thread × Act abi → Prop}

/-! ### The calls of the two loops -/

/-- `pEvtSuber->pEvtSubArgs->ToObjPriv`. -/
def Row.toObjPriv (r : Row abi) : Ptr := r.pEvtSubArgs.elim NULL EvtSubArgs.toObjPriv

/-- What the callback of the row is called with, besides the descriptor. -/
def Row.suberCall (r : Row abi) : EvtOperID abi × Ptr := (r.operID, r.toObjPriv)

/-- The calls for one word. -/
def Row.callsFor (r : Row abi) (evtID id : EvtID) : List (EvtOperID abi × Ptr) :=
  if Evt.matchesEvt id evtID then [r.suberCall] else []

/-- The loop over the identifiers, before it comes to `num`. -/
def Row.callsUpTo (r : Row abi) (evtID : EvtID) (num : ℕ) : List (EvtOperID abi × Ptr) :=
  (List.range num).flatMap fun i => r.callsFor evtID (r.evtIDAt i)

/-- The loop over the identifiers, `num <= NumIDs`. -/
def Row.calls (r : Row abi) (evtID : EvtID) : List (EvtOperID abi × Ptr) := r.callsUpTo evtID (r.evtIDs.length + 1)

/-- An identifier of the row matches the event. -/
def Row.covers (r : Row abi) (evtID : EvtID) : Bool := r.evtIDs.any fun id => Evt.matchesEvt id evtID

/-- The one call of a row that covers the event. -/
def Row.coveredCall (r : Row abi) (evtID : EvtID) : List (EvtOperID abi × Ptr) :=
  if r.covers evtID then [r.suberCall] else []

/-- At most one identifier of the row matches the event, and the word behind them does not. -/
def Row.Once (r : Row abi) (evtID : EvtID) : Prop :=
  r.evtIDs.countP (fun id => Evt.matchesEvt id evtID) ≤ 1 ∧ Evt.matchesEvt r.nextWord evtID = false

instance (r : Row abi) (evtID : EvtID) : Decidable (r.Once evtID) := inferInstanceAs (Decidable (_ ∧ _))

namespace Manger

variable (m : Manger abi) (evtID : EvtID)

/-- The calls for one row. -/
def rowCalls (row : ℕ) : List (EvtOperID abi × Ptr) := (m.subRow row).elim [] fun r => r.calls evtID

/-- The loop over the rows, before it comes to `row`. -/
def callsBelow (row : ℕ) : List (EvtOperID abi × Ptr) := (List.range row).flatMap fun i => m.rowCalls evtID i

/-- The calls of `___PLT_EVT_EvtProcer_callEachSuberCbProcEvt`. -/
def callEachSuberCbProcEvt : List (EvtOperID abi × Ptr) := m.callsBelow evtID m.maySubEvtNumMax.toNat

/-- The calls that are due: one for each row that covers the event, in row order. -/
def coveredCalls : List (EvtOperID abi × Ptr) :=
  (List.range m.maySubEvtNumMax.toNat).flatMap fun i => (m.subRow i).elim [] fun r => r.coveredCall evtID

end Manger

/-- The words that the loop compares. -/
theorem Row.map_evtIDAt (r : Row abi) :
    (List.range (r.evtIDs.length + 1)).map r.evtIDAt = r.evtIDs ++ [r.nextWord] := by
  rw [List.range_succ, List.map_append, List.map_singleton, r.evtIDAt_length]
  congr 1
  refine List.ext_getElem (by simp) fun i h₁ h₂ => ?_
  rw [List.getElem_map, List.getElem_range, r.evtIDAt_of_lt h₂]

theorem flatMap_callsFor (r : Row abi) (evtID : EvtID) (words : List EvtID) :
    words.flatMap (r.callsFor evtID) =
      List.replicate (words.countP fun id => Evt.matchesEvt id evtID) r.suberCall := by
  induction words with
  | nil => rfl
  | cons id words ih =>
    rw [List.flatMap_cons, ih, Row.callsFor, List.countP_cons]
    cases Evt.matchesEvt id evtID with
    | false => simp
    | true => simp [List.replicate_succ]

/-- A row is called once for every word that matches. -/
theorem Row.calls_eq (r : Row abi) (evtID : EvtID) :
    r.calls evtID = List.replicate ((r.evtIDs.countP fun id => Evt.matchesEvt id evtID) +
      if Evt.matchesEvt r.nextWord evtID then 1 else 0) r.suberCall := by
  have hmap : r.calls evtID =
      ((List.range (r.evtIDs.length + 1)).map r.evtIDAt).flatMap (r.callsFor evtID) := by
    rw [List.flatMap_map]
    rfl
  rw [hmap, r.map_evtIDAt, flatMap_callsFor, List.countP_append, List.countP_singleton]

theorem Row.covers_iff (r : Row abi) (evtID : EvtID) :
    r.covers evtID = true ↔ 0 < r.evtIDs.countP fun id => Evt.matchesEvt id evtID := by
  rw [List.countP_pos_iff, Row.covers, List.any_eq_true]

/-- A row that covers the event is called. -/
theorem Row.coveredCall_length_le (r : Row abi) (evtID : EvtID) :
    (r.coveredCall evtID).length ≤ (r.calls evtID).length := by
  rw [Row.coveredCall, r.calls_eq, List.length_replicate]
  split
  · rename_i hcov
    have hpos := (r.covers_iff evtID).mp hcov
    rw [List.length_singleton]
    omega
  · simp

/-- **One row.** -/
theorem Row.calls_iff (r : Row abi) (evtID : EvtID) : r.calls evtID = r.coveredCall evtID ↔ r.Once evtID := by
  have hcov := r.covers_iff evtID
  rw [r.calls_eq, Row.coveredCall, Row.Once]
  generalize r.evtIDs.countP (fun id => Evt.matchesEvt id evtID) = n at hcov ⊢
  cases hc : r.covers evtID with
  | false =>
    have hn : n = 0 := by
      rw [hc] at hcov
      simpa using hcov
    subst hn
    cases Evt.matchesEvt r.nextWord evtID <;> simp
  | true =>
    have hn : 0 < n := hcov.mp hc
    cases Evt.matchesEvt r.nextWord evtID with
    | false =>
      constructor
      · intro h
        have hlen := congrArg List.length h
        simp only [List.length_replicate, if_true, List.length_singleton] at hlen
        exact ⟨by simp at hlen; omega, rfl⟩
      · rintro ⟨hle, -⟩
        obtain rfl : n = 1 := by omega
        rfl
    | true =>
      constructor
      · intro h
        have hlen := congrArg List.length h
        simp only [List.length_replicate, if_true, List.length_singleton] at hlen
        omega
      · rintro ⟨-, hw⟩
        simp at hw

/-- Two concatenations whose parts are never longer in the first agree only part by part. -/
theorem eq_of_flatMap_eq {α β : Type*} {f g : α → List β} {l : List α} (hle : ∀ x ∈ l, (f x).length ≤ (g x).length)
    (h : l.flatMap f = l.flatMap g) : ∀ x ∈ l, f x = g x := by
  induction l with
  | nil => exact fun x hx => absurd hx List.not_mem_nil
  | cons a l ih =>
    have hle' : ∀ x ∈ l, (f x).length ≤ (g x).length := fun x hx => hle x (List.mem_cons_of_mem _ hx)
    have hrest : ∀ l' : List α, (∀ x ∈ l', (f x).length ≤ (g x).length) →
        (l'.flatMap f).length ≤ (l'.flatMap g).length := by
      intro l' hl'
      induction l' with
      | nil => exact le_rfl
      | cons b l' ih' =>
        have hb := hl' b List.mem_cons_self
        have hl := ih' fun x hx => hl' x (List.mem_cons_of_mem _ hx)
        rw [List.flatMap_cons, List.flatMap_cons, List.length_append, List.length_append]
        omega
    rw [List.flatMap_cons, List.flatMap_cons] at h
    have hlen := congrArg List.length h
    rw [List.length_append, List.length_append] at hlen
    have ha := hle a List.mem_cons_self
    have hl := hrest l hle'
    obtain ⟨h₁, h₂⟩ := List.append_inj h (by omega)
    intro x hx
    rcases List.mem_cons.mp hx with rfl | hx
    · exact h₁
    · exact ih hle' h₂ x hx

/-- **The whole table.**  Every covered row is called exactly once, in row order, and no other row is, exactly when no
row matches the event twice or through the word behind its identifiers. -/
theorem Manger.calls_iff (m : Manger abi) (evtID : EvtID) :
    m.callEachSuberCbProcEvt evtID = m.coveredCalls evtID ↔
      ∀ row r, row < m.maySubEvtNumMax.toNat → m.subRow row = some r → r.Once evtID := by
  have hle : ∀ i ∈ List.range m.maySubEvtNumMax.toNat,
      ((m.subRow i).elim [] fun r => r.coveredCall evtID).length ≤ (m.rowCalls evtID i).length := by
    intro i _
    rw [Manger.rowCalls]
    cases m.subRow i with
    | none => exact le_rfl
    | some r => exact r.coveredCall_length_le evtID
  constructor
  · intro h row r hrow hr
    have heq := eq_of_flatMap_eq hle h.symm row (List.mem_range.mpr hrow)
    rw [Manger.rowCalls, hr] at heq
    exact (r.calls_iff evtID).mp heq.symm
  · intro h
    refine List.flatMap_congr fun i hi => ?_
    rw [Manger.rowCalls]
    cases hr : m.subRow i with
    | none => rfl
    | some r => exact (r.calls_iff evtID).mpr (h i r (List.mem_range.mp hi) hr)

/-! ### The loops one comparison at a time -/

namespace Manger

/-- The word that the loops compare at `row` and `num`. -/
def evtIDAt (m : Manger abi) (row num : ℕ) : EvtID := (m.subRow row).elim 0 fun r => r.evtIDAt num

/-- Where the loops can be. -/
def Fits (m : Manger abi) : DispatchPc → Prop
  | .rdlock => True
  | .row row => row ≤ m.maySubEvtNumMax.toNat
  | .cmpClass row num =>
    row < m.maySubEvtNumMax.toNat ∧ ∃ r, m.subRow row = some r ∧ num ≤ r.evtIDs.length + 1
  | .cmpClassmate row num | .call row num | .inCb row num =>
    row < m.maySubEvtNumMax.toNat ∧ ∃ r, m.subRow row = some r ∧ num ≤ r.evtIDs.length

/-- What was found out about the word. -/
def Found (m : Manger abi) (evtID : EvtID) : DispatchPc → Prop
  | .cmpClassmate row num => evtIDClass (m.evtIDAt row num) = evtIDClass evtID
  | .call row num | .inCb row num => matchesEvt (m.evtIDAt row num) evtID = true
  | _ => True

/-- The calls of row `row` before the word `num`. -/
def rowCallsUpTo (m : Manger abi) (evtID : EvtID) (row num : ℕ) : List (EvtOperID abi × Ptr) :=
  (m.subRow row).elim [] fun r => r.callsUpTo evtID num

/-- The calls made so far. -/
def callsTo (m : Manger abi) (evtID : EvtID) : DispatchPc → List (EvtOperID abi × Ptr)
  | .rdlock => []
  | .row row => m.callsBelow evtID row
  | .cmpClass row num | .cmpClassmate row num | .call row num =>
    m.callsBelow evtID row ++ m.rowCallsUpTo evtID row num
  | .inCb row num => m.callsBelow evtID row ++ m.rowCallsUpTo evtID row (num + 1)

end Manger

/-- A step of the loops on an event, with the calls it makes. -/
inductive LoopStep (m : Manger abi) (evtID : EvtID) : DispatchPc → DispatchPc → List (EvtOperID abi × Ptr) → Prop
  | enter : LoopStep m evtID .rdlock (.row 0) []
  | skipRow {row : ℕ} (hlt : row < m.maySubEvtNumMax.toNat) (hr : m.subRow row = none) :
      LoopStep m evtID (.row row) (.row (row + 1)) []
  | enterRow {row : ℕ} (hlt : row < m.maySubEvtNumMax.toNat) (hr : m.subRow row ≠ none) :
      LoopStep m evtID (.row row) (.cmpClass row 0) []
  | leaveRow {row num : ℕ} {r : Row abi} (hr : m.subRow row = some r) (hlt : r.evtIDs.length < num) :
      LoopStep m evtID (.cmpClass row num) (.row (row + 1)) []
  | otherClass {row num : ℕ} {r : Row abi} (hr : m.subRow row = some r) (hle : num ≤ r.evtIDs.length)
      (hne : evtIDClass (r.evtIDAt num) ≠ evtIDClass evtID) :
      LoopStep m evtID (.cmpClass row num) (.cmpClass row (num + 1)) []
  | sameClass {row num : ℕ} {r : Row abi} (hr : m.subRow row = some r) (hle : num ≤ r.evtIDs.length)
      (heq : evtIDClass (r.evtIDAt num) = evtIDClass evtID) :
      LoopStep m evtID (.cmpClass row num) (.cmpClassmate row num) []
  | noClassmate {row num : ℕ} {r : Row abi} (hr : m.subRow row = some r)
      (hz : evtIDClassmate (r.evtIDAt num) &&& evtIDClassmate evtID = 0) :
      LoopStep m evtID (.cmpClassmate row num) (.cmpClass row (num + 1)) []
  | matched {row num : ℕ} {r : Row abi} (hr : m.subRow row = some r)
      (hnz : evtIDClassmate (r.evtIDAt num) &&& evtIDClassmate evtID ≠ 0) :
      LoopStep m evtID (.cmpClassmate row num) (.call row num) []
  | callSuber {row num : ℕ} {r : Row abi} (hr : m.subRow row = some r) :
      LoopStep m evtID (.call row num) (.inCb row num) [r.suberCall]
  | cbRet {row num : ℕ} : LoopStep m evtID (.inCb row num) (.cmpClass row (num + 1)) []

theorem LoopStep.fits {m : Manger abi} {evtID : EvtID} {cs : List (EvtOperID abi × Ptr)}
    (h : LoopStep m evtID pc pc' cs) (hf : m.Fits pc) : m.Fits pc' := by
  cases h with
  | enter => exact Nat.zero_le _
  | skipRow hlt hr => exact hlt
  | enterRow hlt hr =>
    obtain ⟨r, hr⟩ := Option.ne_none_iff_exists'.mp hr
    exact ⟨hlt, r, hr, Nat.zero_le _⟩
  | leaveRow => exact hf.1
  | otherClass hr hle => exact ⟨hf.1, _, hr, Nat.succ_le_succ hle⟩
  | sameClass hr hle => exact ⟨hf.1, _, hr, hle⟩
  | noClassmate | cbRet =>
    obtain ⟨hlt, r, hr, hle⟩ := hf
    exact ⟨hlt, r, hr, Nat.succ_le_succ hle⟩
  | matched | callSuber => exact hf

section

variable {m : Manger abi} {evtID : EvtID} {row num : ℕ} {r : Row abi} {cs : List (EvtOperID abi × Ptr)}

theorem Row.callsUpTo_succ (r : Row abi) (evtID : EvtID) (num : ℕ) :
    r.callsUpTo evtID (num + 1) = r.callsUpTo evtID num ++ r.callsFor evtID (r.evtIDAt num) := by
  rw [Row.callsUpTo, List.range_succ, List.flatMap_append, List.flatMap_singleton]
  rfl

theorem Manger.callsBelow_succ (m : Manger abi) (evtID : EvtID) (row : ℕ) :
    m.callsBelow evtID (row + 1) = m.callsBelow evtID row ++ m.rowCalls evtID row := by
  rw [Manger.callsBelow, List.range_succ, List.flatMap_append, List.flatMap_singleton]
  rfl

theorem Manger.evtIDAt_of_row (hr : m.subRow row = some r) (num : ℕ) : m.evtIDAt row num = r.evtIDAt num := by
  rw [Manger.evtIDAt, hr]
  rfl

theorem Manger.rowCallsUpTo_of_row (hr : m.subRow row = some r) (evtID : EvtID) (num : ℕ) :
    m.rowCallsUpTo evtID row num = r.callsUpTo evtID num := by
  rw [Manger.rowCallsUpTo, hr]
  rfl

/-- A word that does not match adds no call. -/
theorem Manger.rowCallsUpTo_miss (hr : m.subRow row = some r) (hm : matchesEvt (r.evtIDAt num) evtID = false) :
    m.rowCallsUpTo evtID row (num + 1) = m.rowCallsUpTo evtID row num := by
  rw [Manger.rowCallsUpTo_of_row hr, Manger.rowCallsUpTo_of_row hr, Row.callsUpTo_succ, Row.callsFor, hm]
  simp

/-- A word that matches adds one. -/
theorem Manger.rowCallsUpTo_hit (hr : m.subRow row = some r) (hm : matchesEvt (r.evtIDAt num) evtID = true) :
    m.rowCallsUpTo evtID row (num + 1) = m.rowCallsUpTo evtID row num ++ [r.suberCall] := by
  rw [Manger.rowCallsUpTo_of_row hr, Manger.rowCallsUpTo_of_row hr, Row.callsUpTo_succ, Row.callsFor, hm]
  rfl

/-- **The loops make the calls.**  A step on the event adds the calls that lie between its two places. -/
theorem LoopStep.calls (h : LoopStep m evtID pc pc' cs) (hf : m.Fits pc) (hF : m.Found evtID pc) :
    m.Found evtID pc' ∧ m.callsTo evtID pc' = m.callsTo evtID pc ++ cs := by
  cases h with
  | enter => exact ⟨trivial, rfl⟩
  | @skipRow row hlt hr =>
    refine ⟨trivial, ?_⟩
    show m.callsBelow evtID (row + 1) = m.callsBelow evtID row ++ []
    rw [m.callsBelow_succ, Manger.rowCalls, hr]
    rfl
  | @enterRow row hlt hr =>
    obtain ⟨r, hr⟩ := Option.ne_none_iff_exists'.mp hr
    refine ⟨trivial, ?_⟩
    show m.callsBelow evtID row ++ m.rowCallsUpTo evtID row 0 = m.callsBelow evtID row ++ []
    rw [Manger.rowCallsUpTo_of_row hr]
    rfl
  | @leaveRow row num r hr hlt =>
    -- the loop has come to the end of the row
    have hnum : num = r.evtIDs.length + 1 := by
      obtain ⟨-, r', hr', hle⟩ := hf
      rw [hr, Option.some.injEq] at hr'
      subst hr'
      omega
    refine ⟨trivial, ?_⟩
    show m.callsBelow evtID (row + 1) = (m.callsBelow evtID row ++ m.rowCallsUpTo evtID row num) ++ []
    rw [m.callsBelow_succ, Manger.rowCallsUpTo_of_row hr, Manger.rowCalls, hr, hnum, List.append_nil]
    rfl
  | @otherClass row num r hr hle hne =>
    have hm : matchesEvt (r.evtIDAt num) evtID = false := by simp [matchesEvt, hne]
    refine ⟨trivial, ?_⟩
    show m.callsBelow evtID row ++ m.rowCallsUpTo evtID row (num + 1) =
      (m.callsBelow evtID row ++ m.rowCallsUpTo evtID row num) ++ []
    rw [Manger.rowCallsUpTo_miss hr hm, List.append_nil]
  | sameClass hr hle heq =>
    refine ⟨?_, (List.append_nil _).symm⟩
    show evtIDClass (m.evtIDAt _ _) = _
    rw [Manger.evtIDAt_of_row hr]
    exact heq
  | @noClassmate row num r hr hz =>
    have hm : matchesEvt (r.evtIDAt num) evtID = false := by simp [matchesEvt, hz]
    refine ⟨trivial, ?_⟩
    show m.callsBelow evtID row ++ m.rowCallsUpTo evtID row (num + 1) =
      (m.callsBelow evtID row ++ m.rowCallsUpTo evtID row num) ++ []
    rw [Manger.rowCallsUpTo_miss hr hm, List.append_nil]
  | @matched row num r hr hnz =>
    refine ⟨?_, (List.append_nil _).symm⟩
    have hcls : evtIDClass (m.evtIDAt row num) = evtIDClass evtID := hF
    show matchesEvt (m.evtIDAt row num) evtID = true
    rw [Manger.evtIDAt_of_row hr] at hcls ⊢
    rw [matchesEvt, Bool.and_eq_true]
    exact ⟨beq_iff_eq.mpr hcls, bne_iff_ne.mpr hnz⟩
  | @callSuber row num r hr =>
    have hm : matchesEvt (m.evtIDAt row num) evtID = true := hF
    refine ⟨hF, ?_⟩
    show m.callsBelow evtID row ++ m.rowCallsUpTo evtID row (num + 1) =
      (m.callsBelow evtID row ++ m.rowCallsUpTo evtID row num) ++ [r.suberCall]
    rw [Manger.evtIDAt_of_row hr] at hm
    rw [Manger.rowCallsUpTo_hit hr hm, List.append_assoc]
  | cbRet => exact ⟨trivial, (List.append_nil _).symm⟩

end

/-! ### The steps of the system -/

/-- The calls of dispatch `k` of queue `q`. -/
def callsIn (q k : ℕ) (log : List (Obs abi)) : List (EvtOperID abi × Ptr) :=
  log.filterMap fun
    | .call p j id priv _ => if p = q ∧ j = k then some (id, priv) else none
    | _ => none

@[simp] theorem callsIn_append (q k : ℕ) (log os : List (Obs abi)) :
    callsIn q k (log ++ os) = callsIn q k log ++ callsIn q k os :=
  List.filterMap_append

@[simp] theorem callsIn_ret (q k : ℕ) (t : Thread) (r : Option TosResult) :
    callsIn q k [(.ret t r : Obs abi)] = [] := rfl

/-- A call is one of the looks. -/
theorem callsIn_eq_nil {q k : ℕ} {log : List (Obs abi)} (h : ∀ d, (k, d) ∉ readsIn q log) : callsIn q k log = [] := by
  rw [callsIn, List.filterMap_eq_nil_iff]
  intro o ho
  cases o with
  | call p j id priv d =>
    refine if_neg fun hpj => h d ?_
    obtain ⟨rfl, rfl⟩ := hpj
    exact List.mem_filterMap.mpr ⟨_, ho, if_pos rfl⟩
  | _ => rfl

theorem TableStep.callsIn {c : Call abi} {m : Manger abi} {n : ℕ} {c' : Option (Call abi)} {os : List (Obs abi)}
    (h : TableStep s t env c m n c' os) (q k : ℕ) : Evt.callsIn q k os = [] := by
  cases h with
  | @reg args r id m hm => cases id <;> rfl
  | _ => rfl

/-- Outside a callback, the steps of a dispatch are those of the loops. -/
theorem next_dispatch (hL : LiveInv s) (hp : s.procer q = .dispatch slot k pc) (hcb : (s.procer q).isInCb = false)
    (h : next s (.procer q, a) = some s') : s.dispatchStep q slot k pc = some s' := by
  have hc : s.calls (.procer q) = none := by
    by_contra hc
    rw [hL.inCb q hc] at hcb
    simp at hcb
  have hh : ¬ s.halted.isSome = true := by simp [(next_trans h).1]
  unfold next at h
  rw [if_neg hh] at h
  simp only [hc] at h
  cases a with
  | call api =>
    simp [State.startCall, State.userCode, hcb] at h
  | run env | cbRead | cbRet | cancel | wake =>
    simp only [State.procerStep, hp] at h
    cases pc with
    | inCb row num => simp [hp, ProcerPc.isInCb] at hcb
    | _ => first | exact h | simp at h

/-- What a step does to the dispatch of queue `q`. -/
inductive DispatchMove (s s' : State abi) (q : ℕ) : Prop
  | stays (hp : ∀ slot k pc, s'.procer q = .dispatch slot k pc → s.procer q = .dispatch slot k pc ∧
        (pc ≠ .rdlock → s'.manger.subTable = s.manger.subTable ∧
          s'.manger.maySubEvtNumMax = s.manger.maySubEvtNumMax))
      (hr : s.reads q <+: s'.reads q) (hc : ∀ k, callsIn q k s'.log = callsIn q k s.log)
  | takes {slot : ℕ} (hp : s'.procer q = .dispatch slot (s.taken q).length .rdlock)
      (hr : s'.reads q = s.reads q) (hc : ∀ k, callsIn q k s'.log = callsIn q k s.log)
  | loops {slot k : ℕ} {pc pc' : DispatchPc} {d : Option (EvtDesc abi)} {cs : List (EvtOperID abi × Ptr)}
      (hp : s.procer q = .dispatch slot k pc) (hp' : s'.procer q = .dispatch slot k pc')
      (hm : s'.manger = s.manger) (hr : s'.reads q = s.reads q ++ (d.map fun d => (k, d)).toList)
      (hc : callsIn q k s'.log = callsIn q k s.log ++ cs)
      (hstep : ∀ evtID, (∀ x ∈ d, x.evtID = evtID) → LoopStep s.manger evtID pc pc' cs)

/-- A table that is read does not change. -/
theorem TableStep.subTable_of_dispatch {c : Call abi} {m : Manger abi} {n : ℕ} {c' : Option (Call abi)}
    {os : List (Obs abi)} (hL : LiveInv s) (hR : ReaderInv s) (h : TableStep s t env c m n c' os)
    (hp : s.procer q = .dispatch slot k pc) (hpc : pc ≠ .rdlock) :
    m.subTable = s.manger.subTable ∧ m.maySubEvtNumMax = s.manger.maySubEvtNumMax := by
  rcases h.subTable with hnil | hun | hsame
  · have hmem := hR q slot k pc hp hpc
    simp [hnil] at hmem
  · -- a processor runs, so the manager is not in its initial state
    have hcur := (hL.live q (by simp [hp, ProcerPc.alive])).1
    exact absurd hun (hL.life.inited hcur)
  · exact hsame

/-- A comparison, with its outcome. -/
theorem compare_next {row num : ℕ} {r : Row abi} (hL : LiveInv s) (hp : s.procer q = .dispatch slot k pc)
    (hl : (s.queues q).freed = false) (hr : s.subRow row = some r)
    (hm : pc = .cmpClass row num ∧ num ≤ r.evtIDs.length ∨ pc = .cmpClassmate row num)
    (h : next s (.procer q, a) = some s') (hp' : s'.procer q = .dispatch slot k pc') :
    LoopStep s.manger ((s.queue q).evtDescQueue slot).evtID pc pc' [] := by
  have hcb : (s.procer q).isInCb = false := by
    rcases hm with ⟨rfl, -⟩ | rfl <;> simp [hp, ProcerPc.isInCb]
  have hd := next_dispatch hL hp hcb h
  rcases hm with ⟨rfl, hle⟩ | rfl
  · simp only [State.dispatchStep, hr, if_neg (Nat.not_lt.mpr hle), State.compare, hl, Bool.false_eq_true, if_false,
      Option.some.injEq] at hd
    subst hd
    simp only [State.goto, State.setProcer, State.obs, Function.update_self, ProcerPc.dispatch.injEq, true_and] at hp'
    subst hp'
    split
    · rename_i hcls
      exact .sameClass hr hle (beq_iff_eq.mp hcls)
    · rename_i hcls
      exact .otherClass hr hle fun heq => hcls (beq_iff_eq.mpr heq)
  · simp only [State.dispatchStep, hr, State.compare, hl, Bool.false_eq_true, if_false, Option.some.injEq] at hd
    subst hd
    simp only [State.goto, State.setProcer, State.obs, Function.update_self, ProcerPc.dispatch.injEq, true_and] at hp'
    subst hp'
    split
    · rename_i hmate
      exact .matched hr (bne_iff_ne.mp hmate)
    · rename_i hmate
      exact .noClassmate hr (by simpa using hmate)

/-- A step that leaves the table and the log of calls alone, and starts no dispatch. -/
theorem DispatchMove.of_same (os : List (Obs abi))
    (hp : ∀ slot k pc, s'.procer q = .dispatch slot k pc → s.procer q = .dispatch slot k pc)
    (ht : s'.manger.subTable = s.manger.subTable) (hn : s'.manger.maySubEvtNumMax = s.manger.maySubEvtNumMax)
    (hlog : s'.log = s.log ++ os) (hos : ∀ k, callsIn q k os = []) : DispatchMove s s' q :=
  .stays (fun slot k pc h => ⟨hp slot k pc h, fun _ => ⟨ht, hn⟩⟩) (by simp [hlog]) fun k => by simp [hlog, hos k]

theorem next_dispatchMove (hL : LiveInv s) (hR : ReaderInv s) (h : next s (t, a) = some s') (q : ℕ) :
    DispatchMove s s' q := by
  have hn := h
  cases (next_trans h).2 with
  | call | halt => exact .of_same [] (fun _ _ _ hp => hp) rfl rfl (List.append_nil _).symm fun _ => rfl
  | @table env c m n c' os ha hc htab =>
    exact .stays (fun slot k pc hp => ⟨hp, htab.subTable_of_dispatch hL hR hp⟩) (by simp)
      fun k => by simp [htab.callsIn q k]
  | life ha hc hl =>
    have hsub := congrArg Manger.subTable hl.tables
    have hmax := congrArg Manger.maySubEvtNumMax hl.tables
    rcases hl.log_eq with he | ⟨r, he⟩
    · exact .of_same [] (fun _ _ _ hp => hl.dispatch hp) hsub hmax (he.trans (List.append_nil _).symm) fun _ => rfl
    · exact .of_same [.ret t r] (fun _ _ _ hp => hl.dispatch hp) hsub hmax he fun _ => rfl
  | cancelJoin | wait | wake | cancelWait | cancelCb =>
    exact .of_same [] (fun _ _ _ hp => dispatch_of_update (by simp) hp) rfl rfl (List.append_nil _).symm
      fun _ => rfl
  | noTable | endDispatch =>
    exact .of_same _ (fun _ _ _ hp => dispatch_of_update (by simp) hp) rfl rfl rfl fun _ => rfl
  | @post env id arg p d place =>
    exact .of_same [.accept p t ((s.queue p).post id d).2.2] (fun _ _ _ hp => by simpa using hp) (by simp)
      (by simp) (by simp) fun _ => rfl
  | signal =>
    exact .of_same [.ret t (some .success)] (fun _ _ _ hp => dispatch_of_condSignal hp) (by simp) (by simp)
      (by simp) fun _ => rfl
  | cbRead => exact .of_same _ (fun _ _ _ hp => hp) rfl rfl rfl fun _ => rfl
  | @take p ht hc hp hl hm hne =>
    by_cases hq : q = p
    · subst hq
      exact .takes (Function.update_self ..) (by simp [readsIn]) fun k => by simp [callsIn]
    · exact .of_same _ (fun _ _ _ hp => by simpa [Function.update_of_ne hq] using hp) rfl rfl rfl fun _ => rfl
  | @rdlock p slot k ht hc hp hne =>
    by_cases hq : q = p
    · subst hq
      exact .loops (d := none) hp (Function.update_self ..) rfl (by simp) (by simp) fun _ _ => .enter
    · exact .of_same [] (fun _ _ _ hp => by simpa [Function.update_of_ne hq] using hp) rfl rfl
        (List.append_nil _).symm fun _ => rfl
  | @move p slot k pc pc' ht hc hp hm =>
    by_cases hq : q = p
    · subst hq
      refine .loops (d := none) hp (Function.update_self ..) rfl (by simp) (List.append_nil _).symm fun evtID _ => ?_
      rcases hm with ⟨row, rfl, hlt, ⟨hr, rfl⟩ | ⟨hr, rfl⟩⟩ | ⟨row, num, r, rfl, hr, hlt, rfl⟩ | ⟨row, num, rfl, rfl⟩
      · exact .skipRow hlt hr
      · exact .enterRow hlt hr
      · exact .leaveRow hr hlt
      · exact .cbRet
    · exact .of_same [] (fun _ _ _ hp => by simpa [Function.update_of_ne hq] using hp) rfl rfl
        (List.append_nil _).symm fun _ => rfl
  | @compare p slot k row num r pc pc' ht hc hp hl hr hm =>
    by_cases hq : q = p
    · subst hq
      subst ht
      have hm' : pc = .cmpClass row num ∧ num ≤ r.evtIDs.length ∨ pc = .cmpClassmate row num := by
        rcases hm with ⟨h₁, h₂, -⟩ | ⟨h₁, -⟩
        · exact .inl ⟨h₁, h₂⟩
        · exact .inr h₁
      have hstep : LoopStep s.manger ((s.queue q).evtDescQueue slot).evtID pc pc' [] :=
        compare_next hL hp hl hr hm' hn (by simp)
      refine .loops (d := some ((s.queue q).evtDescQueue slot)) hp (Function.update_self ..) rfl (by simp [readsIn])
        (callsIn_append ..) fun evtID hd => ?_
      rwa [hd _ rfl] at hstep
    · exact .of_same _ (fun _ _ _ hp => by simpa [Function.update_of_ne hq] using hp) rfl rfl rfl fun _ => rfl
  | @callSuber p slot k row num r args ht hc hp hr hs =>
    by_cases hq : q = p
    · subst hq
      have hcall : r.suberCall = (r.operID, args.toObjPriv) := by rw [Row.suberCall, Row.toObjPriv, hs]; rfl
      refine .loops (d := some ((s.queue q).evtDescQueue slot)) hp (Function.update_self ..) rfl (by simp [readsIn])
        (callsIn_append ..) fun _ _ => ?_
      have hcs : callsIn q k [.call q k r.operID args.toObjPriv ((s.queue q).evtDescQueue slot)] = [r.suberCall] := by
        simp [callsIn, hcall]
      rw [hcs]
      exact .callSuber hr
    · exact .of_same _ (fun _ _ _ hp => by simpa [Function.update_of_ne hq] using hp) rfl rfl rfl
        fun _ => by simp [callsIn, Ne.symm hq]

/-! ### Runs -/

/-- The looks so far were those of the dispatches so far. -/
theorem reads_lt (h : Reach ok clients s) (q : ℕ) : ∀ k d, (k, d) ∈ s.reads q → k < (s.taken q).length := by
  refine h.induction (P := fun s => ∀ k d, (k, d) ∈ s.reads q → k < (s.taken q).length)
    (fun k d hmem => by simp [State.init, readsIn] at hmem) fun s s' t a hr ih _ _ htr k d hmem => ?_
  have hL := liveInv_reach hr
  have hle : (s.taken q).length ≤ (s'.taken q).length := by
    cases htr.queueStep hL q with
    | same hi hq ha ht | init hi hi' hq ha ht | post hrun hc hi hi' hfull hq ha ht
    | pass hrun hc hi hi' hfull hp hq ha ht => rw [ht]
    | take hp hi hi' hn hq ha ht =>
      rw [ht, List.length_append]
      omega
  rcases htr.reads q with hsame | ⟨slot, j, pc, hp, -, happ⟩
  · rw [hsame] at hmem
    exact (ih k d hmem).trans_le hle
  · rw [happ, List.mem_append, List.mem_singleton] at hmem
    rcases hmem with hmem | hmem
    · exact (ih k d hmem).trans_le hle
    · obtain ⟨rfl, -⟩ := Prod.mk.inj hmem
      have huse := (hL.live q (by simp [hp, ProcerPc.alive])).2
      obtain ⟨r, -, hdisp⟩ := (queue_reach hr).2 q huse.mutexInit
      have hk := (hdisp slot k pc hp).2
      omega

/-- A dispatch is where the loops can be, and has made the calls of the loops for the event that it found, as long as
it found one event. -/
def LoopInv (s : State abi) (q : ℕ) : Prop :=
  ∀ slot k pc, s.procer q = .dispatch slot k pc → s.manger.Fits pc ∧
    ∀ evtID, (∀ d, (k, d) ∈ s.reads q → d.evtID = evtID) →
      s.manger.Found evtID pc ∧ callsIn q k s.log = s.manger.callsTo evtID pc

theorem Manger.fits_congr {m m' : Manger abi} (ht : m'.subTable = m.subTable)
    (hn : m'.maySubEvtNumMax = m.maySubEvtNumMax) (hf : m.Fits pc) : m'.Fits pc := by
  cases pc with
  | rdlock => trivial
  | _ => simpa only [Manger.Fits, Manger.subRow, ht, hn] using hf

theorem Manger.found_congr {m m' : Manger abi} (ht : m'.subTable = m.subTable) {evtID : EvtID}
    (hf : m.Found evtID pc) : m'.Found evtID pc := by
  cases pc with
  | rdlock | row | cmpClass => trivial
  | _ => simpa only [Manger.Found, Manger.evtIDAt, Manger.subRow, ht] using hf

theorem Manger.callsTo_congr {m m' : Manger abi} (ht : m'.subTable = m.subTable) (evtID : EvtID) :
    m'.callsTo evtID pc = m.callsTo evtID pc := by
  cases pc <;> simp only [Manger.callsTo, Manger.callsBelow, Manger.rowCalls, Manger.rowCallsUpTo, Manger.subRow, ht]

theorem loopInv_step (hI : LoopInv s q) (htaken : ∀ k d, (k, d) ∈ s.reads q → k < (s.taken q).length)
    (h : DispatchMove s s' q) : LoopInv s' q := by
  intro slot k pc hp
  cases h with
  | stays hsame hr hc =>
    obtain ⟨hp₀, htab⟩ := hsame slot k pc hp
    obtain ⟨hf, hcalls⟩ := hI slot k pc hp₀
    by_cases hpc : pc = .rdlock
    · subst hpc
      refine ⟨trivial, fun evtID hd => ⟨trivial, ?_⟩⟩
      rw [hc]
      exact (hcalls evtID fun d hmem => hd d (hr.subset hmem)).2
    · obtain ⟨ht, hn⟩ := htab hpc
      refine ⟨Manger.fits_congr ht hn hf, fun evtID hd => ?_⟩
      obtain ⟨hF, hlog⟩ := hcalls evtID fun d hmem => hd d (hr.subset hmem)
      exact ⟨Manger.found_congr ht hF, by rw [hc, Manger.callsTo_congr ht, hlog]⟩
  | takes hp' hr hc =>
    rw [hp', ProcerPc.dispatch.injEq] at hp
    obtain ⟨-, rfl, rfl⟩ := hp
    refine ⟨trivial, fun evtID hd => ⟨trivial, ?_⟩⟩
    rw [hc]
    exact callsIn_eq_nil fun d hmem => Nat.lt_irrefl _ (htaken _ d hmem)
  | @loops _ _ _ _ d _ hp₀ hp' hm hr hc hstep =>
    rw [hp', ProcerPc.dispatch.injEq] at hp
    obtain ⟨rfl, rfl, rfl⟩ := hp
    obtain ⟨hf, hcalls⟩ := hI _ _ _ hp₀
    rw [hm]
    refine ⟨?_, fun evtID hd => ?_⟩
    · refine (hstep ((d.map EvtDesc.evtID).getD 0) fun x hx => ?_).fits hf
      rw [Option.mem_def.mp hx]
      rfl
    · have hds : ∀ x ∈ d, x.evtID = evtID := by
        intro x hx
        refine hd x ?_
        rw [hr, Option.mem_def.mp hx]
        simp
      obtain ⟨hF, hlog⟩ := hcalls evtID fun x hmem => hd x (by rw [hr]; exact List.mem_append_left _ hmem)
      obtain ⟨hF', hto⟩ := (hstep evtID hds).calls hf hF
      exact ⟨hF', by rw [hc, hto, hlog]⟩

theorem loopInv_reach (h : Reach ok clients s) (q : ℕ) : LoopInv s q := by
  refine Runs.ReachUnder.invariant (P := fun s => LoopInv s q) (fun slot k pc hp => ?_) (fun s s' x hr hI _ hn => ?_) h
  · simp [State.init] at hp
  · exact loopInv_step hI (reads_lt hr q) (next_dispatchMove (liveInv_reach hr) (readerInv_reach hr) hn q)

/-- **A dispatch that went through the table made the calls of the two loops**, for the event that it found. -/
theorem dispatch_calls (h : Reach ok clients s) (hp : s.procer q = .dispatch slot k pc)
    (hn : next s (.procer q, a) = some s') (hdone : s'.procer q = .top) {evtID : EvtID}
    (hd : ∀ d, (k, d) ∈ s'.reads q → d.evtID = evtID) :
    callsIn q k s'.log = s.manger.callEachSuberCbProcEvt evtID := by
  have hI := loopInv_reach h q slot k pc hp
  -- the dispatch is left at the lock, when there is no table, or at the end of the table
  have hcases : s'.log = s.log ++ [.dispatched q k] ∧
      s.manger.callsTo evtID pc = s.manger.callEachSuberCbProcEvt evtID := by
    have hL := liveInv_reach h
    cases (next_trans hn).2 with
    | call | table | cbRead | halt => simp [hp] at hdone
    | life ha hc hl => simp [hl.procer_eq hL hc (p := q) (by simp [hp]), hp] at hdone
    | post => simp [hp] at hdone
    | signal =>
      simp only [State.ret, State.setCall, State.obs, State.condSignal] at hdone
      split at hdone
      · rename_i p _ _ _ _ hw
        by_cases hqp : q = p
        · simp [hqp] at hdone
        · simp [Function.update_of_ne hqp, hp] at hdone
      · simp [hp] at hdone
    | cancelJoin ha ht | wait ht | take ht | wake ht | cancelWait ha ht | rdlock ht | move ht | compare ht
    | callSuber ht | cancelCb ha ht =>
      obtain rfl := Thread.procer.inj ht
      simp at hdone
    | noTable ht hc hp' hnone =>
      obtain rfl := Thread.procer.inj ht
      rw [hp, ProcerPc.dispatch.injEq] at hp'
      obtain ⟨rfl, rfl, rfl⟩ := hp'
      refine ⟨rfl, (List.flatMap_eq_nil_iff.mpr fun row _ => ?_).symm⟩
      simp [Manger.rowCalls, Manger.subRow, hnone]
    | @endDispatch p slot k row ht hc hp' hrow =>
      obtain rfl := Thread.procer.inj ht
      rw [hp, ProcerPc.dispatch.injEq] at hp'
      obtain ⟨rfl, rfl, rfl⟩ := hp'
      have hle : row ≤ s.manger.maySubEvtNumMax.toNat := hI.1
      refine ⟨rfl, ?_⟩
      rw [Manger.callEachSuberCbProcEvt, ← Nat.le_antisymm hle hrow]
      rfl
  obtain ⟨hlog, hto⟩ := hcases
  have hreads : s'.reads q = s.reads q := by
    show readsIn q s'.log = _
    rw [hlog, readsIn_append]
    exact List.append_nil _
  have hcalls := (hI.2 evtID fun d hmem => hd d (hreads ▸ hmem)).2
  rw [hlog, callsIn_append, hcalls, hto]
  exact List.append_nil _

/-- A client with one row for these identifiers starts the processor and posts a keep-alive, which is taken. -/
def takenWith (ids : List EvtID) : List (Thread × Act lp64) :=
  ([(.client 0, .call (.initEvtManger (some ⟨0, 0, 1, 0⟩))), (.client 0, .go),
    (.client 0, .call (.regOper ⟨0⟩)), (.client 0, .go), (.client 0, .go),
    (.client 0, .call (.subEvts 0 ids ⟨1, 1⟩)), (.client 0, .go), (.client 0, .go)] : List (Thread × Act lp64)) ++
    enabling (.client 0) ++ postOf (defineEvtDesc lp64 evtIDTestKeepAlive) ++ [(.client 0, .go), (.procer 0, .go)]

/-- The dispatch enters the row and calls its callback for the first identifier. -/
def calledOnce : List (Thread × Act lp64) := List.replicate 5 (.procer 0, .go) ++ [(.procer 0, .cbRet)]

end PlatIF.Evt
