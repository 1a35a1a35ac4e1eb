import PlatIF.Evt.Types

/-!
# The manager's tables

The static variables of `PlatIF_Event.c` other than the event queues: the manager's state, the limits, the operator
registry and the two tables of the publish/subscribe database.  Every function here is the body of one lock section.

A table is allocated with a length and addressed with a limit of its own, which the source keeps in another variable.
-/

namespace PlatIF.Evt

variable {abi : Abi}

/-- `TOS_YES`. -/
abbrev tosYes : TosResult := .already

/-- `TOS_NO`. -/
abbrev tosNo : TosResult := .success

/-! ### Tables -/

/-- A calloc'ed array of pointers. -/
structure Table (α : Type*) where
  len : ℕ
  entry : ℕ → Option α

namespace Table

variable {α : Type*}

/-- `calloc(sizeof(void*), n)`. -/
def calloc (n : ℕ) : Table α := ⟨n, fun _ => none⟩

def set (tab : Table α) (i : ℕ) (x : Option α) : Table α := { tab with entry := Function.update tab.entry i x }

/-- The first null entry below `max`. -/
def firstFree (tab : Table α) (max : ℕ) : Option ℕ := (List.range max).find? fun i => (tab.entry i).isNone

/-- The first entry below `max` that meets `p`. -/
def first (tab : Table α) (max : ℕ) (p : α → Bool) : Option ℕ :=
  (List.range max).find? fun i => (tab.entry i).any p

end Table

/-- `_TOS_EvtOperObj_T`. -/
structure EvtOperObj (abi : Abi) where
  evtOperID : EvtOperID abi
  evtOperArgs : EvtOperArgs

/-- `_TOS_EvtPBDB_RoleType_T`; `none` is the zero that `calloc` leaves. -/
inductive RoleType where
  | none
  | evtPuber
  | evtSuber
  deriving DecidableEq

/-- `_EvtPSDB_Row_T`.  `operID` is the union of `EvtPuberID` and `EvtSuberID`; `evtIDs` has `NumIDs` elements, and
`nextWord` is the word behind them, which dispatch reads too. -/
structure Row (abi : Abi) where
  roleType : RoleType
  operID : EvtOperID abi
  pEvtSubArgs : Option EvtSubArgs
  evtIDs : List EvtID
  nextWord : EvtID

/-- A row as `calloc` leaves it. -/
def Row.zero : Row abi := ⟨.none, 0, none, [], 0⟩

/-- Which store through `pRow` comes next in `__PLT_EVT_doPubEvts`. -/
inductive FillPc where
  | roleType
  | numIDs
  | evtPuberID
  /-- `pRow->EvtIDs[num] = EvtIDs[num]`. -/
  | evtID (num : ℕ)
  deriving DecidableEq

/-- The store after this one; `none` after the last. -/
def FillPc.next (evtIDs : List EvtID) : FillPc → Option FillPc
  | .roleType => some .numIDs
  | .numIDs => some .evtPuberID
  | .evtPuberID => if 0 < evtIDs.length then some (.evtID 0) else none
  | .evtID num => if num + 1 < evtIDs.length then some (.evtID (num + 1)) else none

/-- A store through `pRow`; with `NumIDs` the zeroed words behind the row become its identifiers. -/
def Row.fill (evtPuberID : EvtOperID abi) (evtIDs : List EvtID) (pc : FillPc) (r : Row abi) : Row abi :=
  match pc with
  | .roleType => { r with roleType := .evtPuber }
  | .numIDs => { r with evtIDs := List.replicate evtIDs.length 0 }
  | .evtPuberID => { r with operID := evtPuberID }
  | .evtID num => { r with evtIDs := r.evtIDs.set num (evtIDs.getD num 0) }

/-- `pEvtSuber->EvtIDs[num]` for `num <= NumIDs`. -/
def Row.evtIDAt (r : Row abi) (num : ℕ) : EvtID := r.evtIDs.getD num r.nextWord

/-- The static variables, without the queue objects themselves.  Entries of `evtQueueProcer` are pointers to queue
objects; entries of the publication table come with their address, and `freedRows` are the addresses of those that
were freed. -/
structure Manger (abi : Abi) where
  state : EvtMangerState
  mayRegOperNumMax : BitVec 16
  regedOperObjs : Option (Table (EvtOperObj abi))
  mayPubEvtNumMax : BitVec 32
  pubTable : Option (Table (ℕ × Row abi))
  freedRows : List ℕ
  maySubEvtNumMax : BitVec 32
  subTable : Option (Table (Row abi))
  mayEvtQueueNumMax : BitVec 16
  evtQueueProcer : Option (Table ℕ)
  mayEvtDescQueueNumMax : BitVec 16

/-- What the platform answers: whether the allocations of a step succeed, in order, and what stands behind the
identifiers of a new row (the padding of the zeroed row on LP64). -/
structure Env where
  alloc : ℕ → Bool := fun _ => true
  nextWord : EvtID := 0

namespace Manger

/-- The static initializers. -/
def init : Manger abi where
  state := .uninited
  mayRegOperNumMax := 16
  regedOperObjs := none
  mayPubEvtNumMax := 16
  pubTable := none
  freedRows := []
  maySubEvtNumMax := 16
  subTable := none
  mayEvtQueueNumMax := 1
  evtQueueProcer := none
  mayEvtDescQueueNumMax := 32

variable (m : Manger abi)

/-! ### `PLT_EVT_initEvtManger` -/

/-- `_RetErrResult`: the tables are freed and their pointers cleared. -/
def freeTables : Manger abi :=
  { m with regedOperObjs := none, pubTable := none, subTable := none, evtQueueProcer := none }

/-- A parameter that is not zero replaces the limit. -/
def limit {w : ℕ} (param old : BitVec w) : BitVec w := if param = 0 then old else param

/-- The four limits with their tables, in the order of the source. -/
def initTables (args : EvtMangerModArgs) (env : Env) : TosResult × Manger abi :=
  let m := { m with mayRegOperNumMax := limit args.mayRegOperNumMax m.mayRegOperNumMax }
  if env.alloc 0 = false then (.notEnoughMemory, m.freeTables)
  else
    let m := { m with regedOperObjs := some (.calloc m.mayRegOperNumMax.toNat) }
    let m := { m with mayPubEvtNumMax := limit (args.mayPubEvtNumMax.setWidth 32) m.mayPubEvtNumMax }
    if env.alloc 1 = false then (.notEnoughMemory, m.freeTables)
    else
      let m := { m with pubTable := some (.calloc m.mayPubEvtNumMax.toNat) }
      let m := { m with maySubEvtNumMax := limit (args.maySubEvtNumMax.setWidth 32) m.maySubEvtNumMax }
      if env.alloc 2 = false then (.notEnoughMemory, m.freeTables)
      else
        let m := { m with subTable := some (.calloc m.maySubEvtNumMax.toNat) }
        let m := { m with mayEvtDescQueueNumMax := limit args.mayEvtQueueDepthMax m.mayEvtDescQueueNumMax }
        if env.alloc 3 = false then (.notEnoughMemory, m.freeTables)
        else (.success, { m with evtQueueProcer := some (.calloc m.mayEvtQueueNumMax.toNat) })

/-- `PLT_EVT_initEvtManger`: without arguments the state is set and no table is allocated. -/
def initEvtManger (pEvtModArgs : Option EvtMangerModArgs) (env : Env) : TosResult × Manger abi :=
  if m.state ≠ .uninited then (.badState, m)
  else
    match pEvtModArgs with
    | none => (.success, { m with state := .ready })
    | some args =>
      match m.initTables args env with
      | (.success, m) => (.success, { m with state := .ready })
      | (r, m) => (r, m)

/-! ### The operator registry -/

/-- `__PLT_EVT_isRegedOperID`. -/
def isRegedOperID (evtOperID : EvtOperID abi) : TosResult :=
  match m.regedOperObjs with
  | none => .bug
  | some tab =>
    if m.mayRegOperNumMax.toNat ≤ evtOperID.toNat then .bug
    else if (tab.entry evtOperID.toNat).any fun o => o.evtOperID == evtOperID then tosYes
    else tosNo

/-- `__PLT_EVT_doRegOper`, with the id it hands out. -/
def doRegOper (evtOperArgs : EvtOperArgs) (env : Env) : TosResult × Option (EvtOperID abi) × Manger abi :=
  match m.regedOperObjs with
  | none => (.bug, none, m)
  | some tab =>
    match tab.firstFree m.mayRegOperNumMax.toNat with
    | none => (.tooManyReged, none, m)
    | some idx =>
      if env.alloc 0 = false then (.notEnoughMemory, none, m)
      else
        (.success, some (BitVec.ofNat _ idx),
          { m with regedOperObjs := some (tab.set idx (some ⟨BitVec.ofNat _ idx, evtOperArgs⟩)) })

/-- `PLT_EVT_unregOper`. -/
def unregOper (evtOperID : EvtOperID abi) : Manger abi :=
  match m.regedOperObjs with
  | none => m
  | some tab =>
    match tab.first m.mayRegOperNumMax.toNat fun o => o.evtOperID == evtOperID with
    | none => m
    | some idx => { m with regedOperObjs := some (tab.set idx none) }

/-! ### The subscription table -/

/-- `__PLT_EVT_doSubEvts`; a full table is reported with the code for publications. -/
def doSubEvts (evtSuberID : EvtOperID abi) (evtIDs : List EvtID) (evtSubArgs : EvtSubArgs) (env : Env) :
    TosResult × Manger abi :=
  match m.subTable with
  | none => (.bug, m)
  | some tab =>
    match tab.firstFree m.maySubEvtNumMax.toNat with
    | none => (.tooManyPubedEvents, m)
    | some row =>
      if env.alloc 0 = false then (.notEnoughMemory, m)
      else if env.alloc 1 = false then (.notEnoughMemory, m)
      else
        (.success,
          { m with subTable := some (tab.set row
              (some ⟨.evtSuber, evtSuberID, some evtSubArgs, evtIDs, env.nextWord⟩)) })

/-- `PLT_EVT_unsubEvts`. -/
def unsubEvts (evtOperID : EvtOperID abi) : Manger abi :=
  match m.subTable with
  | none => m
  | some tab =>
    match tab.first m.maySubEvtNumMax.toNat fun r => r.roleType == .evtSuber && r.operID == evtOperID with
    | none => m
    | some row => { m with subTable := some (tab.set row none) }

/-! ### The publication table -/

/-- `PLT_EVT_unpubEvts`. -/
def unpubEvts (evtOperID : EvtOperID abi) : Manger abi :=
  match m.pubTable with
  | none => m
  | some tab =>
    match tab.first m.mayPubEvtNumMax.toNat fun r => r.2.roleType == .evtPuber && r.2.operID == evtOperID with
    | none => m
    | some row =>
      { m with
        pubTable := some (tab.set row none),
        freedRows := ((tab.entry row).map Prod.fst).toList ++ m.freedRows }

/-- `_mEvtPSDB_PubTable[row] = pRow`. -/
def storePubRow (row pRow : ℕ) : Manger abi :=
  match m.pubTable with
  | none => m
  | some tab => { m with pubTable := some (tab.set row (some (pRow, .zero))) }

/-- A store through `pRow`; the table may hold another pointer by now. -/
def fillPubRow (row pRow : ℕ) (evtPuberID : EvtOperID abi) (evtIDs : List EvtID) (pc : FillPc) : Manger abi :=
  match m.pubTable with
  | none => m
  | some tab =>
    match tab.entry row with
    | none => m
    | some r =>
      if r.1 = pRow then { m with pubTable := some (tab.set row (some (pRow, r.2.fill evtPuberID evtIDs pc))) }
      else m

end Manger

end PlatIF.Evt
