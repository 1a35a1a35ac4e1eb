import PlatIF.Base

/-!
# Public types of the EVT module

`PlatIF_EventTypes.h` and `PlatIF_EventID.h`: operator and event ids, event descriptors, subscription arguments, and
the parameters of the manager.
-/

namespace PlatIF.Evt

variable {abi : Abi}

/-- `TOS_EvtID_T`. -/
abbrev EvtID := BitVec 32

/-- `TOS_EvtOperID_T`. -/
abbrev EvtOperID (abi : Abi) := ULong abi

/-- `TOS_EVENT_CLASS_MASK`. -/
def eventClassMask : BitVec 32 := 0x000000FF#32

/-- `TOS_EVENT_ALL_IN_CLASS`. -/
def eventAllInClass : BitVec 32 := 0x00FFFFFF#32

/-- `TOS_MAKE_EVTID`; `TOS_MAKE_EVTID_GROUP` has the same body. -/
def makeEvtID (evtMetaClassID evtMetaClassmateID : BitVec 32) : EvtID :=
  (evtMetaClassID &&& eventClassMask) ||| ((evtMetaClassmateID &&& eventAllInClass) <<< 8)

/-- `TOS_GET_EVTID_CLASS`. -/
def evtIDClass (id : EvtID) : BitVec 32 := id &&& eventClassMask

/-- `TOS_GET_EVTID_CLASSMATE`. -/
def evtIDClassmate (id : EvtID) : BitVec 32 := (id >>> 8) &&& eventAllInClass

/-- `TOS_EVTID_TEST_KEEPALIVE`. -/
def evtIDTestKeepAlive : EvtID := makeEvtID 1#32 1#32

/-- `TOS_EvtDesc_T`; `EvtData` is its 32 bytes. -/
structure EvtDesc (abi : Abi) where
  evtPuberID : EvtOperID abi
  evtID : EvtID
  evtFlags : BitVec 32
  seqID : BitVec 32
  evtData : BitVec 256
  deriving DecidableEq

/-- `TOS_EVT_defineEvtDesc`: only `EvtID` is set. -/
def defineEvtDesc (abi : Abi) (id : EvtID) : EvtDesc abi := ⟨0, id, 0, 0, 0⟩

instance : Inhabited (EvtDesc abi) := ⟨defineEvtDesc abi 0⟩

/-- `TOS_EvtSubArgs_T`. -/
structure EvtSubArgs where
  toObjPriv : Ptr
  cbProcEvtSRTF : Ptr
  deriving DecidableEq

/-- `TOS_EvtOperArgs_T`. -/
structure EvtOperArgs where
  modObjID : BitVec 16

/-- `TOS_EvtMangerModArgs_T`; a parameter of `0` is `TOS_EVTPARAM_DEFAULT`.  `MayEvtQueueNumMax` is not read. -/
structure EvtMangerModArgs where
  mayRegOperNumMax : BitVec 16
  mayPubEvtNumMax : BitVec 16
  maySubEvtNumMax : BitVec 16
  mayEvtQueueDepthMax : BitVec 16

/-- `_EvtMangerState_T`. -/
inductive EvtMangerState where
  | uninited
  | ready
  | running
  deriving DecidableEq

end PlatIF.Evt
