import PlatIF.Base

/-!
# Public types of the IOC module

`PlatIF_IOC.h`: event descriptors, subscription arguments and the per-call options, with the three
delivery options that `__IOC_ConlesMode_postEVT` decodes from them.
-/

namespace PlatIF.Ioc

/-- `IOC_EvtID_T`. -/
abbrev EvtID := BitVec 64

/-- `IOC_MsgDesc_T`. -/
structure MsgDesc (abi : Abi) where
  seqID : ULong abi
  flags : BitVec 32
  deriving DecidableEq

/-- `IOC_EvtDesc_T`. -/
structure EvtDesc (abi : Abi) where
  msgDesc : MsgDesc abi
  evtID : EvtID
  deriving DecidableEq

instance {abi : Abi} : Inhabited (EvtDesc abi) := ⟨⟨⟨0, 0⟩, 0⟩⟩

/-- A descriptor with only `EvtID` set, as a designated initializer makes it. -/
def EvtDesc.ofID (abi : Abi) (id : EvtID) : EvtDesc abi := ⟨⟨0, 0⟩, id⟩

/-- `IOC_MSGFLAG_MAYDROP`. -/
def msgFlagMayDrop : BitVec 32 := 1#32

/-- `MsgDesc.Flags & IOC_MSGFLAG_MAYDROP`. -/
def EvtDesc.mayDrop {abi : Abi} (d : EvtDesc abi) : Bool := d.msgDesc.flags &&& msgFlagMayDrop != 0#32

/-- `IOC_EvtSubArgs_T`.  `pEvtIDs = none` is the null pointer; `EvtNum` is the length of the array. -/
structure EvtSubArgs where
  cbProcEvtF : Ptr
  pCbPriv : Ptr
  pEvtIDs : Option (List EvtID)
  deriving DecidableEq

/-- `IOC_EvtUnsubArgs_T`. -/
structure EvtUnsubArgs where
  cbProcEvtF : Ptr
  pCbPriv : Ptr
  deriving DecidableEq

/-- `IOC_Options_T`: the option bits and the `TimeoutUS` payload. -/
structure Options where
  ids : BitVec 32
  timeoutUS : BitVec 32
  deriving DecidableEq

/-- `IOC_OPTID_TIMEOUT`. -/
def optIDTimeout : BitVec 32 := 1#32

/-- `IOC_OPTID_SYNC_MODE`. -/
def optIDSyncMode : BitVec 32 := 2#32

/-- The option the drain loop posts a cached event with. -/
def optNonBlock : Options := ⟨optIDTimeout, 0#32⟩

/-- `IsSyncMode` of a post call. -/
def isSyncMode (o : Option Options) : Bool :=
  match o with
  | none => false
  | some o => o.ids &&& optIDSyncMode != 0#32

/-- `IsNonBlock` of a post call: a timeout of zero. -/
def isNonBlock (o : Option Options) : Bool :=
  match o with
  | none => false
  | some o => o.ids &&& optIDTimeout != 0#32 && o.timeoutUS == 0#32

/-- `IsTimeout` of a post call: a timeout other than zero. -/
def isTimeout (o : Option Options) : Bool :=
  match o with
  | none => false
  | some o => o.ids &&& optIDTimeout != 0#32 && o.timeoutUS != 0#32

@[simp] theorem isNonBlock_optNonBlock : isNonBlock (some optNonBlock) = true := by decide

@[simp] theorem isSyncMode_optNonBlock : isSyncMode (some optNonBlock) = false := by decide

@[simp] theorem isTimeout_optNonBlock : isTimeout (some optNonBlock) = false := by decide

/-- Does a subscription list this event: the null tests and the inner search loop of the fan-out. -/
def EvtSubArgs.lists {abi : Abi} (x : EvtSubArgs) (d : EvtDesc abi) : Bool :=
  x.cbProcEvtF != NULL &&
    match x.pEvtIDs with
    | none => false
    | some ids => ids.contains d.evtID

theorem EvtSubArgs.cb_ne_null_of_lists {abi : Abi} {x : EvtSubArgs} {d : EvtDesc abi}
    (h : x.lists d = true) : x.cbProcEvtF ≠ NULL := by
  intro hc
  simp [lists, hc] at h

theorem EvtSubArgs.ids_of_lists {abi : Abi} {x : EvtSubArgs} {d : EvtDesc abi}
    (h : x.lists d = true) : x.pEvtIDs ≠ none := by
  intro hc
  simp [lists, hc] at h

end PlatIF.Ioc
