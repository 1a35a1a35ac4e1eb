import PlatIF.Ioc.Types
import PlatIF.Lib.RecMutex
import PlatIF.Lib.WrapRing

/-!
# The connectionless event context

`_mConlesEvtCtx` and its table of subscriber slots, with the parts of `__IOC_ConlesMode_subEVT` and
`__IOC_ConlesMode_unsubEVT` that run under the context mutex.  The table is a function from slot indices:
every loop of the source bounds its index by `MaxSuberNum`.
-/

namespace PlatIF.Ioc

variable {abi : Abi}

/-- `_IOC_CONLES_EVTQUEUE_MAX`. -/
abbrev evtQueueMax : ℕ := 1

/-- `_IOC_CONLES_EVTCACHED_MAX`. -/
abbrev evtCachedMax : ℕ := 4

instance : NeZero evtQueueMax := ⟨by decide⟩

instance : NeZero evtCachedMax := ⟨by decide⟩

/-- `_IOC_ConlesEventSuber_T`.  `evtQueue` is `EvtPostCnt`, `EvtProcCnt` and `EvtDescQueue`; `evtCached`
is `EvtPostCachedCnt`, `EvtProcCachedCnt` and `EvtDescCachedQueue`.  The threads blocked on `Cond` are
found by their program point. -/
structure Suber (abi : Abi) where
  mutex : Option Tid
  shouldExitASyncThread : Bool
  args : EvtSubArgs
  asyncThreadID : Option Tid
  evtQueue : WrapRing abi.ulongBits evtQueueMax (EvtDesc abi)
  evtCached : WrapRing abi.ulongBits evtCachedMax (EvtDesc abi)

/-- A slot of zero bytes, as `calloc` and `memset` leave it. -/
def Suber.zero : Suber abi where
  mutex := none
  shouldExitASyncThread := false
  args := ⟨NULL, NULL, none⟩
  asyncThreadID := none
  evtQueue := ⟨0, 0, fun _ => default⟩
  evtCached := ⟨0, 0, fun _ => default⟩

/-- `pthread_mutex_lock(&pEvtSuber->Mutex)`: `none` while another thread holds it. -/
def Suber.lock (x : Suber abi) (t : Tid) : Option (Suber abi) :=
  match x.mutex with
  | none => some { x with mutex := some t }
  | some _ => none

/-- `pthread_mutex_unlock(&pEvtSuber->Mutex)`. -/
def Suber.unlock (x : Suber abi) : Suber abi := { x with mutex := none }

/-- The slot is taken: `Args.CbProcEvt_F != NULL`. -/
def Suber.occupied (x : Suber abi) : Prop := x.args.cbProcEvtF ≠ NULL

instance (x : Suber abi) : Decidable x.occupied := inferInstanceAs (Decidable (_ ≠ _))

/-- The three stores that free a slot. -/
def Suber.clearArgs (x : Suber abi) : Suber abi :=
  { x with args := { x.args with cbProcEvtF := NULL, pCbPriv := NULL, pEvtIDs := none } }

/-- `_IOC_ConlesEventContext_T`.  `isAlloced` says that `pEvtSubers` is not null. -/
structure Ctx (abi : Abi) where
  mutex : RecMutex Tid
  maxSuberNum : ULong abi
  curSuberNum : ULong abi
  isAlloced : Bool
  pEvtSubers : ℕ → Suber abi
  isSyncMode : Bool

/-- `.MaxSuberNum` of the static initializer of `_mConlesEvtCtx`. -/
def initMaxSuberNum (abi : Abi) : ULong abi := BitVec.ofNat _ 32

/-- The static initializer of `_mConlesEvtCtx`, for a given table size. -/
def Ctx.init (maxSuberNum : ULong abi) : Ctx abi where
  mutex := none
  maxSuberNum := maxSuberNum
  curSuberNum := 0
  isAlloced := false
  pEvtSubers := fun _ => Suber.zero
  isSyncMode := false

/-- Write slot `i`. -/
@[simp] def Ctx.setSuber (c : Ctx abi) (i : ℕ) (x : Suber abi) : Ctx abi :=
  { c with pEvtSubers := Function.update c.pEvtSubers i x }

/-- What the platform answers when a step asks it for a resource. -/
structure Env where
  calloc : Bool := true
  malloc : Bool := true
  threadCreate : Bool := true
  deriving DecidableEq

/-! ### `__IOC_ConlesMode_subEVT` -/

/-- How the body of `subEVT` ends.  `filled` names the slot whose fields were overwritten. -/
inductive SubOutcome (abi : Abi) where
  | blocked
  | abort
  | ret (result : TosResult) (ctx : Ctx abi) (filled : Option ℕ)

/-- The first-time `calloc` of the table. -/
def Ctx.allocSubers (c : Ctx abi) : Ctx abi :=
  if c.isAlloced then c else { c with isAlloced := true, pEvtSubers := fun _ => Suber.zero }

theorem Ctx.allocSubers_eq (c : Ctx abi) :
    c.allocSubers = { c with isAlloced := true, pEvtSubers := c.allocSubers.pEvtSubers } := by
  unfold Ctx.allocSubers
  split
  · rename_i h
    rw [← h]
  · rfl

/-- `FreeSuberIdx`: the first slot whose callback pointer is null. -/
def Ctx.freeSuberIdx (c : Ctx abi) : Option ℕ :=
  (List.range c.maxSuberNum.toNat).find? fun i => decide (¬ (c.pEvtSubers i).occupied)

theorem Ctx.freeSuberIdx_eq_none {c : Ctx abi} :
    c.freeSuberIdx = none ↔ ∀ i, i < c.maxSuberNum.toNat → (c.pEvtSubers i).occupied := by
  simp [Ctx.freeSuberIdx]

theorem Ctx.freeSuberIdx_eq_some {c : Ctx abi} {i : ℕ} (h : c.freeSuberIdx = some i) :
    i < c.maxSuberNum.toNat ∧ ¬ (c.pEvtSubers i).occupied :=
  ⟨List.mem_range.mp (List.mem_of_find?_eq_some h), by simpa using List.find?_some h⟩

theorem Ctx.allocSubers_of_isAlloced {c : Ctx abi} (h : c.isAlloced = true) : c.allocSubers = c := by
  simp [Ctx.allocSubers, h]

/-- The refilled slot before the identifier array is allocated. -/
def Suber.ofArgs (args : EvtSubArgs) : Suber abi :=
  { Suber.zero with args := { args with pEvtIDs := none } }

/-- The refilled slot with its own copy of the identifiers. -/
def Suber.ofArgsCopied (args : EvtSubArgs) : Suber abi :=
  { Suber.zero with args := { args with pEvtIDs := some (args.pEvtIDs.getD []) } }

/-- `__IOC_ConlesMode_subEVT`.  The mutex covers the whole body. -/
def subEVT (c : Ctx abi) (t : Tid) (args : EvtSubArgs) (env : Env) : SubOutcome abi :=
  match RecMutex.tryLock c.mutex t with
  | none => .blocked
  | some m =>
    if c.curSuberNum ≥ c.maxSuberNum then
      .ret .notEnoughResource { c with mutex := RecMutex.unlock m t } none
    else if !c.isAlloced && !env.calloc then .abort
    else
      match c.allocSubers.freeSuberIdx with
      -- the source calls `pthread_mutex_lock` on this path, not `pthread_mutex_unlock`
      | none => .ret .notTestedBug { c.allocSubers with mutex := (RecMutex.tryLock m t).getD m } none
      | some i =>
        if env.malloc then
          .ret .success
            { c.allocSubers.setSuber i (.ofArgsCopied args) with
              curSuberNum := c.curSuberNum + 1, mutex := RecMutex.unlock m t } (some i)
        else
          .ret .notTestedBug
            { c.allocSubers.setSuber i (.ofArgs args) with mutex := RecMutex.unlock m t } (some i)

/-! ### `__IOC_ConlesMode_unsubEVT` -/

/-- What the search loop of `unsubEVT` does at one slot. -/
inductive UnsubNext (abi : Abi) where
  /-- The slot has an async thread, which is stopped first. -/
  | stop
  /-- Go on with the next slot. -/
  | next (ctx : Ctx abi)
  /-- Leave the loop, with the mutex released. -/
  | done (ctx : Ctx abi)

/-- The key test of the search loop. -/
def Suber.hasKey (x : Suber abi) (k : EvtUnsubArgs) : Prop :=
  x.args.cbProcEvtF = k.cbProcEvtF ∧ x.args.pCbPriv = k.pCbPriv

instance (x : Suber abi) (k : EvtUnsubArgs) : Decidable (x.hasKey k) :=
  inferInstanceAs (Decidable (_ ∧ _))

/-- The tail of the loop body: free the slot, after its thread (if any) was stopped.  By key the loop
ends here; for `unsubEVT(NULL)` a slot without an identifier array is left as it is. -/
def unsubFree (c : Ctx abi) (t : Tid) (args : Option EvtUnsubArgs) (i : ℕ) : UnsubNext abi :=
  match args with
  | none =>
    if (c.pEvtSubers i).args.pEvtIDs.isSome then .next (c.setSuber i (c.pEvtSubers i).clearArgs)
    else .next c
  | some _ =>
    .done { c.setSuber i (c.pEvtSubers i).clearArgs with
      curSuberNum := c.curSuberNum - 1, mutex := RecMutex.unlock c.mutex t }

/-- One iteration of the search loop, and its exit. -/
def unsubVisit (c : Ctx abi) (t : Tid) (args : Option EvtUnsubArgs) (i : ℕ) : UnsubNext abi :=
  if i < c.maxSuberNum.toNat then
    match args with
    | none => if (c.pEvtSubers i).asyncThreadID.isSome then .stop else unsubFree c t none i
    | some k =>
      if (c.pEvtSubers i).hasKey k then
        if (c.pEvtSubers i).asyncThreadID.isSome then .stop else unsubFree c t (some k) i
      else .next c
  else
    match args with
    | none => .done { c with curSuberNum := 0, mutex := RecMutex.unlock c.mutex t }
    | some _ => .done { c with mutex := RecMutex.unlock c.mutex t }

end PlatIF.Ioc
