import PlatIF.Ioc.CacheSafe
import PlatIF.Ioc.Count
import PlatIF.Ioc.Delivery
import PlatIF.Lib.Broker

/-!
# The connectionless mode is a broker

The table of slots with its async threads, queues, caches and counters is compared with the broker of `Lib.Broker`,
which knows subscriptions and events only.  An observer who reads the log sees the operations of the broker (`ops`); a
state stands for the broker that `Rep` describes: the mailbox of a subscription is the event in the hand of its thread
and then its queue, and what it has put aside is its cache.

* `Trans.news` — what a step logs beside the flow of events;
* `rep_step` — every step is one operation of the broker, or none;
* `broker_refines` — so every run is an execution of the broker;
* `subscription_life` — and its log has the life of every subscription in order.
-/

namespace PlatIF.Ioc

variable {abi : Abi} {s s' s₁ : State abi} {t u : Tid} {a : Act abi} {i k g : ℕ} {d : EvtDesc abi} {o : Obs abi}
  {rest : List (Frame abi)} {ok : State abi → Tid × Act abi → Prop} {maxSuberNum : ULong abi} {clients : ℕ}
  {b : Broker ℕ (EvtDesc abi)}

/-! ### The operations in the log -/

/-- The operation that a log entry reports. -/
def Obs.op : Obs abi → Option (Broker.Op ℕ (EvtDesc abi))
  | .subscribed _ g => some (.subscribe g)
  | .removed g _ => some (.cancel g)
  | .accept g _ _ d => some (.accept g d)
  | .deliver g _ d => some (.deliver g d)
  | .syncCall g _ d => some (.notify g d)
  | .store g _ d => some (.defer g d)
  | .retire g _ => some (.retire g)
  | .cbRet .. | .ret .. => none

/-- The operations that the log reports. -/
def ops (log : List (Obs abi)) : List (Broker.Op ℕ (EvtDesc abi)) := log.filterMap Obs.op

/-- The log entries about subscriptions, and about SYNC callbacks. -/
def Obs.isNews : Obs abi → Bool
  | .subscribed .. | .removed .. | .syncCall .. => true
  | _ => false

/-- The log, without the other entries. -/
def news (log : List (Obs abi)) : List (Obs abi) := log.filter Obs.isNews

theorem news_append (l l' : List (Obs abi)) : news (l ++ l') = news l ++ news l' := List.filter_append ..

/-- Operations that are all in one part of the log. -/
theorem ops_filter {p : Obs abi → Bool} {xs : List (Obs abi)} (h : ∀ o, o ∈ xs → p o = false → o.op = none) :
    ops (xs.filter p) = ops xs := by
  rw [ops, ops, List.filterMap_filter]
  refine List.filterMap_congr fun o ho => ?_
  cases hp : p o with
  | true => rfl
  | false => simp [h o ho hp]

/-- A step that logs the flow of events and nothing else. -/
theorem ops_of_flow {l l' os : List (Obs abi)} (hp : l <+: l') (hf : flow l' = flow l ++ os) (hn : news l' = news l) :
    ops l' = ops l ++ ops os := by
  obtain ⟨xs, rfl⟩ := hp
  rw [flow_append, List.append_cancel_left_eq] at hf
  rw [news_append, List.append_right_eq_self, news, List.filter_eq_nil_iff] at hn
  have hx : ops (flow xs) = ops xs := ops_filter fun o ho hflow => by
    have hnews := hn o ho
    cases o <;> simp_all [Obs.isFlow, Obs.isNews, Obs.op]
  rw [← hf, hx, ops, ops, ops, List.filterMap_append]

/-- A step that logs no flow of events. -/
theorem ops_of_news {l l' os : List (Obs abi)} (hp : l <+: l') (hf : flow l' = flow l) (hn : news l' = news l ++ os) :
    ops l' = ops l ++ ops os := by
  obtain ⟨xs, rfl⟩ := hp
  rw [news_append, List.append_cancel_left_eq] at hn
  rw [flow_append, List.append_right_eq_self, flow, List.filter_eq_nil_iff] at hf
  have hx : ops (news xs) = ops xs := ops_filter fun o ho hnews => by
    have hflow := hf o ho
    cases o <;> simp_all [Obs.isFlow, Obs.isNews, Obs.op]
  rw [← hn, hx, ops, ops, ops, List.filterMap_append]

/-! ### What a step logs -/

/-- The log only grows. -/
theorem Trans.log_prefix (h : Trans s t a s') : s.log <+: s'.log := by
  cases h
  case unsubSignal hw | postSignal hw | postRetrySignal hw =>
    obtain ⟨b, rfl, -⟩ := hw.eq
    exact List.prefix_rfl
  all_goals simp [List.append_assoc]

/-- What a step logs of subscriptions and of SYNC callbacks. -/
inductive News (s s' : State abi) (t : Tid) : Prop
  | quiet (h : news s'.log = news s.log) (hn : s'.nextSid = s.nextSid)
      (ho : ∀ i, (s.suber i).occupied → (s'.suber i).occupied)
  | subscribed {f : SubFrame} {rest : List (Frame abi)} {i : ℕ} (hf : s.frames t = .sub f :: rest)
      (hn : s'.nextSid = s.nextSid + 1) (h : news s'.log = news s.log ++ [.subscribed i s.nextSid])
  | removed {f : UnsubFrame} {rest : List (Frame abi)} {i : ℕ} (hf : s.frames t = .unsub f :: rest)
      (ho : (s.suber i).occupied) (ho' : ¬ (s'.suber i).occupied)
      (h : news s'.log = news s.log ++ [.removed (s.sid i) t])
  | sync {f : PostFrame abi} {rest : List (Frame abi)} {i : ℕ} (hf : s.frames t = .post f :: rest) (hp : f.pc = .loop i)
      (hl : (s.suber i).args.lists (s.desc t f) = true)
      (h : news s'.log = news s.log ++ [.syncCall (s.sid i) t (s.desc t f)])

/-- What freeing a slot logs. -/
theorem News.freed {f : UnsubFrame} (hf : s.frames t = .unsub f :: rest)
    (hc : s'.ctx.pEvtSubers = Function.update s.ctx.pEvtSubers k (s.suber k).freed) (hn : s'.nextSid = s.nextSid)
    (hl : news s'.log = news (s.freeSlot t k).log) : News s s' t := by
  by_cases ho : (s.suber k).occupied
  · refine .removed hf ho (by simp [State.suber, hc]) ?_
    rw [hl, State.freeSlot, if_pos ho, news_append]
    rfl
  · refine .quiet (by simp [hl, ho]) hn fun i hi => ?_
    have hik : i ≠ k := fun hik => ho (hik ▸ hi)
    simpa [State.suber, hc, hik] using hi

/-- A step that logs no news and writes to one slot, where it keeps the arguments. -/
theorem News.of_update {x : Suber abi} (h : news s'.log = news s.log) (hn : s'.nextSid = s.nextSid)
    (hc : s'.ctx.pEvtSubers = Function.update s.ctx.pEvtSubers k x) (hx : x.args = (s.suber k).args) : News s s' t := by
  refine .quiet h hn fun i ho => ?_
  rw [State.suber, hc]
  exact (Suber.occupied_congr (update_args hx i)).mpr ho

theorem Trans.news (hA : AllocInv s) (h : Trans s t a s') : News s s' t := by
  cases h
  case unsubSignal hw | postSignal hw | postRetrySignal hw =>
    obtain ⟨b, rfl, -⟩ := hw.eq
    exact .quiet rfl rfl fun _ h => h
  case subFill env f rest m i hf hm hc hi =>
    exact .subscribed (i := i) hf rfl (by simp [Ioc.news, Obs.isNews, List.filter_cons])
  case subNoSlot =>
    exact .quiet (by simp [Ioc.news, Obs.isNews]) rfl fun i ho => by simpa [State.suber, hA.allocSubers] using ho
  case postSync hf hp _ hl _ => exact .sync hf hp hl (by simp [Ioc.news, Obs.isNews])
  case unsubFreeNext hf _ _ _ => exact .freed hf rfl rfl rfl
  case unsubFreeDone hf _ _ => exact .freed hf rfl rfl (by simp [Ioc.news, Obs.isNews])
  case unsubSetFlag | unsubKeepNext | asyncTake | asyncRetire | haltRetire =>
    exact .of_update (by simp [Ioc.news, Obs.isNews]) rfl rfl rfl
  case postCache => exact .of_update (by simp [Ioc.news, Obs.isNews]) (by simp) (by simp; rfl) (by rfl)
  case postAccept | postFull | postRetry | haltPush =>
    exact .of_update (by simp [Ioc.news, Obs.isNews]) (by simp) (by simp; rfl) (by simp [withThread_suber])
  all_goals exact .quiet (by simp [Ioc.news, Obs.isNews]) (by simp) fun i ho => by simpa [State.suber] using ho

/-- A step of a thread that makes and ends no subscription, and calls no callback for a post, logs no news. -/
theorem News.of_frames (h : News s s' t) (hn : s'.nextSid = s.nextSid)
    (ho : ∀ i, (s.suber i).occupied → (s'.suber i).occupied)
    (hl : ∀ f rest i, s.frames t = .post f :: rest → f.pc ≠ .loop i) : news s'.log = news s.log := by
  cases h with
  | quiet h => exact h
  | subscribed _ hn' => omega
  | removed _ hi hi' => exact absurd (ho _ hi) hi'
  | sync hf hp => exact absurd hp (hl _ _ _ hf)

/-! ### The broker that a state stands for -/

/-- What waits for the subscription in slot `i`: the event its thread has in hand, then its queue. -/
def State.box (s : State abi) (i : ℕ) : List (EvtDesc abi) := s.inHand i ++ (s.suber i).evtQueue.contents

/-- The state stands for the broker. -/
structure Rep (s : State abi) (b : Broker ℕ (EvtDesc abi)) : Prop where
  known : ∀ g, g ∈ b.known ↔ g ≠ 0 ∧ g < s.nextSid
  live : ∀ g, g ∈ b.live ↔ ∃ i, s.sid i = g ∧ (s.suber i).occupied
  wants : ∀ i, (s.suber i).occupied → b.wants (s.sid i) = {d | (s.suber i).args.lists d = true}
  mailbox : ∀ i, (s.suber i).occupied → b.mailbox (s.sid i) = s.box i
  deferred : ∀ i, (s.suber i).occupied → b.deferred (s.sid i) = (s.suber i).evtCached.contents
  fresh : ∀ g, s.nextSid ≤ g → b.mailbox g = [] ∧ b.deferred g = []

/-- What waits fits into the hand of the thread and the queue. -/
theorem State.box_length (s : State abi) (i : ℕ) :
    (s.box i).length ≤ (s.suber i).evtQueue.pending + 1 := by
  have hhand : (s.inHand i).length ≤ 1 := by
    unfold State.inHand
    split
    · unfold Base.taken
      split <;> simp
    · simp
  rw [State.box, List.length_append, WrapRing.contents_length]
  omega

/-- A step that keeps the subscriptions writes to the boxes and the caches only. -/
theorem Rep.of_kept (hR : Rep s b) (hs : s'.sid = s.sid) (hn : s'.nextSid = s.nextSid)
    (ha : ∀ i, (s'.suber i).args = (s.suber i).args) {m c : ℕ → List (EvtDesc abi)}
    (hm : ∀ i, (s.suber i).occupied → m (s.sid i) = s'.box i)
    (hc : ∀ i, (s.suber i).occupied → c (s.sid i) = (s'.suber i).evtCached.contents)
    (hf : ∀ g, s.nextSid ≤ g → m g = [] ∧ c g = []) :
    Rep s' { b with mailbox := m, deferred := c } where
  known g := by rw [hn]; exact hR.known g
  live g := by
    rw [hs]
    refine (hR.live g).trans (exists_congr fun i => ?_)
    rw [Suber.occupied_congr (ha i)]
  wants i ho := by rw [hs, ha]; exact hR.wants i ((Suber.occupied_congr (ha i)).mp ho)
  mailbox i ho := by rw [hs]; exact hm i ((Suber.occupied_congr (ha i)).mp ho)
  deferred i ho := by rw [hs]; exact hc i ((Suber.occupied_congr (ha i)).mp ho)
  fresh g hg := hf g (hn ▸ hg)

/-- A step that writes nothing the broker knows of. -/
theorem Rep.same (hR : Rep s b) (hs : s'.sid = s.sid) (hn : s'.nextSid = s.nextSid)
    (ha : ∀ i, (s'.suber i).args = (s.suber i).args) (hm : ∀ i, s'.box i = s.box i)
    (hc : ∀ i, (s'.suber i).evtCached.contents = (s.suber i).evtCached.contents) : Rep s' b :=
  hR.of_kept hs hn ha (fun i ho => (hR.mailbox i ho).trans (hm i).symm)
    (fun i ho => (hR.deferred i ho).trans (hc i).symm) hR.fresh

/-- A step that writes to the box of one subscription. -/
theorem Rep.of_box (hR : Rep s b) (hI : SlotInv s) (ho : (s.suber k).occupied) (hs : s'.sid = s.sid)
    (hn : s'.nextSid = s.nextSid) (ha : ∀ i, (s'.suber i).args = (s.suber i).args)
    (hm : ∀ i, i ≠ k → s'.box i = s.box i)
    (hc : ∀ i, (s'.suber i).evtCached.contents = (s.suber i).evtCached.contents) :
    Rep s' { b with mailbox := Function.update b.mailbox (s.sid k) (s'.box k) } := by
  have h0 := hI.sid_pos k ho
  refine hR.of_kept hs hn ha (fun i hi => ?_) (fun i hi => (hR.deferred i hi).trans (hc i).symm) fun g hg => ?_
  · by_cases hik : i = k
    · rw [hik, Function.update_self]
    · rw [Function.update_of_ne fun h => hik (hI.sid_inj k i h.symm h0).symm, hR.mailbox i hi, hm i hik]
  · have hlt := hI.sid_lt k
    rw [Function.update_of_ne (by omega)]
    exact hR.fresh g hg

/-- A step that writes to the cache of one subscription. -/
theorem Rep.of_cache (hR : Rep s b) (hI : SlotInv s) (ho : (s.suber k).occupied) (hs : s'.sid = s.sid)
    (hn : s'.nextSid = s.nextSid) (ha : ∀ i, (s'.suber i).args = (s.suber i).args) (hm : ∀ i, s'.box i = s.box i)
    (hc : ∀ i, i ≠ k → (s'.suber i).evtCached.contents = (s.suber i).evtCached.contents) :
    Rep s' { b with deferred := Function.update b.deferred (s.sid k) (s'.suber k).evtCached.contents } := by
  have h0 := hI.sid_pos k ho
  refine hR.of_kept hs hn ha (fun i hi => (hR.mailbox i hi).trans (hm i).symm) (fun i hi => ?_) fun g hg => ?_
  · by_cases hik : i = k
    · rw [hik, Function.update_self]
    · rw [Function.update_of_ne fun h => hik (hI.sid_inj k i h.symm h0).symm, hR.deferred i hi, hc i hik]
  · have hlt := hI.sid_lt k
    rw [Function.update_of_ne (by omega)]
    exact hR.fresh g hg

/-- Slot `k`, which was free, is filled by a new subscription, and all else stays. -/
structure Fills (s s' : State abi) (k : ℕ) : Prop where
  free : ¬ (s.suber k).occupied
  blank : (s'.suber k).Blank
  other : ∀ i, i ≠ k → s'.suber i = s.suber i
  sid : s'.sid = Function.update s.sid k s.nextSid
  nextSid : s'.nextSid = s.nextSid + 1
  base : s'.base = s.base

theorem Fills.box (h : Fills s s' k) : s'.box k = [] ∧ ∀ i, i ≠ k → s'.box i = s.box i := by
  constructor
  · rw [State.box, State.inHand_of_none h.blank.asyncThreadID, h.blank.evtQueue, WrapRing.contents_of_eq rfl,
      List.append_nil]
  · intro i hi
    have hhand : s'.inHand i = s.inHand i := inHand_congr (by rw [h.other i hi]) fun u _ => by rw [h.base]
    rw [State.box, State.box, hhand, h.other i hi]

/-- The broker of the next state has the new subscription among the known ones, and among the live ones when it has a
callback. -/
theorem Rep.of_fills (hR : Rep s b) (hI : SlotInv s) (h : Fills s s' k) {live : Set ℕ} {wants : ℕ → Set (EvtDesc abi)}
    (hl : ∀ g, g ∈ live ↔ g ∈ b.live ∨ g = s.nextSid ∧ (s'.suber k).occupied)
    (hw : ∀ g, g ≠ s.nextSid → wants g = b.wants g)
    (hw' : (s'.suber k).occupied → wants s.nextSid = {d | (s'.suber k).args.lists d = true}) :
    Rep s' { b with known := insert s.nextSid b.known, live := live, wants := wants } := by
  have hself : s'.sid k = s.nextSid := by rw [h.sid, Function.update_self]
  have hsid : ∀ i, i ≠ k → s'.sid i = s.sid i := fun i hi => by rw [h.sid, Function.update_of_ne hi]
  obtain ⟨hnil, hbox⟩ := h.box
  refine ⟨fun g => ?known, fun g => ?live, fun i hi => ?wants, fun i hi => ?mailbox, fun i hi => ?deferred, fun g hg => ?fresh⟩
  case known =>
    have hpos := hI.sid_lt k
    rw [Set.mem_insert_iff, hR.known, h.nextSid]
    omega
  case live =>
    rw [hl, hR.live]
    constructor
    · rintro (⟨i, rfl, hi⟩ | ⟨rfl, hk⟩)
      · have hik : i ≠ k := fun hik => h.free (hik ▸ hi)
        exact ⟨i, hsid i hik, (h.other i hik).symm ▸ hi⟩
      · exact ⟨k, hself, hk⟩
    · rintro ⟨i, rfl, hi⟩
      by_cases hik : i = k
      · exact .inr ⟨hik ▸ hself, hik ▸ hi⟩
      · exact .inl ⟨i, (hsid i hik).symm, h.other i hik ▸ hi⟩
  case wants =>
    by_cases hik : i = k
    · subst hik
      rw [hself]
      exact hw' hi
    · have hlt := hI.sid_lt i
      rw [h.other i hik] at hi ⊢
      rw [hsid i hik]
      exact (hw _ (by omega)).trans (hR.wants i hi)
  case mailbox =>
    by_cases hik : i = k
    · rw [hik, hself, hnil]
      exact (hR.fresh _ le_rfl).1
    · rw [hsid i hik, hbox i hik]
      exact hR.mailbox i (h.other i hik ▸ hi)
  case deferred =>
    by_cases hik : i = k
    · rw [hik, hself, h.blank.evtCached, WrapRing.contents_of_eq rfl]
      exact (hR.fresh _ le_rfl).2
    · rw [h.other i hik] at hi ⊢
      rw [hsid i hik]
      exact hR.deferred i hi
  case fresh =>
    have hn := h.nextSid
    exact hR.fresh g (by omega)

/-- `subEVT` makes a new subscription.  Without a callback it is refused. -/
theorem Rep.filled {room aside : ℕ} (hR : Rep s b) (hI : SlotInv s) (h : Fills s s' k) :
    ∃ b', Broker.Step room aside b (.subscribe s.nextSid) b' ∧ Rep s' b' := by
  have hnew : s.nextSid ∉ b.known := fun h => lt_irrefl _ ((hR.known _).mp h).2
  by_cases ho : (s'.suber k).occupied
  · refine ⟨_, .subscribe hnew {d | (s'.suber k).args.lists d = true}, hR.of_fills hI h (fun g => ?_) (fun g hg => ?_)
      fun _ => Function.update_self ..⟩
    · rw [Set.mem_insert_iff, or_comm]
      exact or_congr_right (iff_self_and.mpr fun _ => ho)
    · exact Function.update_of_ne hg ..
  · exact ⟨_, .refuse hnew, hR.of_fills hI h (fun g => (or_iff_left fun hk => ho hk.2).symm) (fun _ _ => rfl)
      fun hk => absurd hk ho⟩

/-- `unsubEVT` ends a subscription. -/
theorem Rep.freed (hR : Rep s b) (hI : SlotInv s)
    (hc : s'.ctx.pEvtSubers = Function.update s.ctx.pEvtSubers k (s.suber k).freed) (hs : s'.sid = s.sid)
    (hn : s'.nextSid = s.nextSid) (hm : ∀ i, s'.box i = s.box i) :
    Rep s' { b with live := b.live \ {s.sid k} } := by
  have hother : ∀ i, (s'.suber i).occupied → i ≠ k ∧ s'.suber i = s.suber i := fun i hi => by
    by_cases hik : i = k
    · rw [hik, State.suber, hc, Function.update_self] at hi
      exact absurd hi (Suber.freed_occupied _)
    · exact ⟨hik, by rw [State.suber, hc, Function.update_of_ne hik]⟩
  refine ⟨fun g => by rw [hn]; exact hR.known g, fun g => ?_, fun i hi => ?_, fun i hi => ?_, fun i hi => ?_,
    fun g hg => hR.fresh g (hn ▸ hg)⟩
  · rw [Set.mem_sdiff, Set.mem_singleton_iff, hR.live, hs]
    constructor
    · rintro ⟨⟨i, rfl, hi⟩, hk⟩
      have hik : i ≠ k := fun hik => hk (by rw [hik])
      exact ⟨i, rfl, by simpa [State.suber, hc, hik] using hi⟩
    · rintro ⟨i, rfl, hi⟩
      obtain ⟨hik, hx⟩ := hother i hi
      rw [hx] at hi
      exact ⟨⟨i, rfl, hi⟩, fun hk => hik (hI.sid_inj i k hk (hI.sid_pos i hi))⟩
  · rw [hs, (hother i hi).2]
    exact hR.wants i ((hother i hi).2 ▸ hi)
  · rw [hs, hm i]
    exact hR.mailbox i ((hother i hi).2 ▸ hi)
  · rw [hs, (hother i hi).2]
    exact hR.deferred i ((hother i hi).2 ▸ hi)

/-- A free slot holds no live subscription. -/
theorem Rep.notMem_live (hR : Rep s b) (hI : SlotInv s) (ho : ¬ (s.suber k).occupied) : s.sid k ∉ b.live := by
  intro h
  obtain ⟨i, hi, hocc⟩ := (hR.live _).mp h
  exact ho (hI.sid_inj i k hi (hI.sid_pos i hocc) ▸ hocc)

/-! ### Every step is an operation of the broker -/

/-- A box is what was accepted and not delivered. -/
theorem FlowInv.box (hF : FlowInv s) (i : ℕ) :
    (ledger (s.sid i) s.log).accepted = (ledger (s.sid i) s.log).delivered ++ s.box i :=
  (hF.channel i).trans (List.append_assoc ..)

theorem FlowInv.box_eq (hF : FlowInv s) (hF' : FlowInv s') (hs : s'.sid i = s.sid i)
    (hl : ledger (s.sid i) s'.log = ledger (s.sid i) s.log) : s'.box i = s.box i := by
  have hbox := hF'.box i
  rw [hs, hl, hF.box i] at hbox
  exact (List.append_cancel_left hbox).symm

theorem CacheInv.contents_eq (hC : CacheInv s) (hC' : CacheInv s') (hs : s'.sid i = s.sid i)
    (hl : ledger (s.sid i) s'.log = ledger (s.sid i) s.log) :
    (s'.suber i).evtCached.contents = (s.suber i).evtCached.contents := by
  rw [(hC' i).contents, (hC i).contents, hs, hl]

/-- The channels and caches of two states that are one step apart. -/
structure Boxed (s s' : State abi) : Prop where
  channels : FlowInv s
  channels' : FlowInv s'
  caches : CacheInv s
  caches' : CacheInv s'
  slots : SlotInv s

/-- The step keeps the subscriptions. -/
structure Keeps (s s' : State abi) : Prop where
  sid : s'.sid = s.sid
  nextSid : s'.nextSid = s.nextSid
  args : ∀ i, (s'.suber i).args = (s.suber i).args

theorem Keeps.of_update {x : Suber abi} (hs : s'.sid = s.sid) (hn : s'.nextSid = s.nextSid)
    (hc : s'.ctx.pEvtSubers = Function.update s.ctx.pEvtSubers k x) (hx : x.args = (s.suber k).args) : Keeps s s' :=
  ⟨hs, hn, fun i => by
    rw [State.suber, hc]
    exact update_args hx i⟩

/-- A step that moves no event. -/
theorem Rep.still (hR : Rep s b) (hB : Boxed s s') (hK : Keeps s s') (hl : flow s'.log = flow s.log) : Rep s' b :=
  hR.same hK.sid hK.nextSid hK.args
    (fun i => hB.channels.box_eq hB.channels' (congrFun hK.sid i) (ledger_same hl _))
    fun i => hB.caches.contents_eq hB.caches' (congrFun hK.sid i) (ledger_same hl _)

/-- A step that moves an event of the subscription in slot `k` keeps what waits for the others. -/
theorem Boxed.other (hB : Boxed s s') (hK : Keeps s s') (ho : (s.suber k).occupied)
    (hl : flow s'.log = flow s.log ++ [o]) (ha : o.about = some (s.sid k)) (hi : i ≠ k) :
    s'.box i = s.box i ∧ (s'.suber i).evtCached.contents = (s.suber i).evtCached.contents := by
  have hledger : ledger (s.sid i) s'.log = ledger (s.sid i) s.log := ledger_other hl (by
    rw [ha]
    exact fun h => hi (hB.slots.sid_inj k i (Option.some.inj h) (hB.slots.sid_pos k ho)).symm)
  exact ⟨hB.channels.box_eq hB.channels' (congrFun hK.sid i) hledger,
    hB.caches.contents_eq hB.caches' (congrFun hK.sid i) hledger⟩

/-- A step that changes what waits for the subscription in slot `k`. -/
theorem Rep.of_moved (hR : Rep s b) (hB : Boxed s s') (hK : Keeps s s') (ho : (s.suber k).occupied)
    (hl : flow s'.log = flow s.log ++ [o]) (ha : o.about = some (s.sid k))
    (hc : (s'.suber k).evtCached.contents = (s.suber k).evtCached.contents) :
    Rep s' { b with mailbox := Function.update b.mailbox (s.sid k) (s'.box k) } := by
  refine hR.of_box hB.slots ho hK.sid hK.nextSid hK.args (fun i hi => (hB.other hK ho hl ha hi).1) fun i => ?_
  by_cases hi : i = k
  · rw [hi, hc]
  · exact (hB.other hK ho hl ha hi).2

/-- A step that changes what the subscription in slot `k` has put aside. -/
theorem Rep.of_deferred (hR : Rep s b) (hB : Boxed s s') (hK : Keeps s s') (ho : (s.suber k).occupied)
    (hl : flow s'.log = flow s.log ++ [o]) (ha : o.about = some (s.sid k)) (hm : s'.box k = s.box k) :
    Rep s' { b with deferred := Function.update b.deferred (s.sid k) (s'.suber k).evtCached.contents } := by
  refine hR.of_cache hB.slots ho hK.sid hK.nextSid hK.args (fun i => ?_) fun i hi => (hB.other hK ho hl ha hi).2
  by_cases hi : i = k
  · rw [hi, hm]
  · exact (hB.other hK ho hl ha hi).1

/-- A push is an operation of the broker. -/
theorem Rep.accepted {c : Bool} (hR : Rep s b) (hB : Boxed s s') (hK : Keeps s s')
    (hl : flow s'.log = flow s.log ++ [.accept (s.sid k) t c d])
    (hlists : (s.suber k).args.lists d = true) (hr : (s.suber k).evtQueue.hasRoom = true) :
    ∃ b', Broker.Step (evtQueueMax + 1) evtCachedMax b (.accept (s.sid k) d) b' ∧ Rep s' b' := by
  have ho : (s.suber k).occupied := EvtSubArgs.cb_ne_null_of_lists hlists
  have hbox : s'.box k = s.box k ++ [d] := by
    have hacc := hB.channels'.box k
    rw [hK.sid, ledger_accept hl] at hacc
    change (ledger (s.sid k) s.log).accepted ++ [d] = (ledger (s.sid k) s.log).delivered ++ s'.box k at hacc
    rw [hB.channels.box k, List.append_assoc] at hacc
    exact (List.append_cancel_left hacc).symm
  have hcache : (s'.suber k).evtCached.contents = (s.suber k).evtCached.contents := by
    rw [(hB.caches' k).contents, (hB.caches k).contents, hK.sid, ledger_accept hl]
  have hroom := (WrapRing.hasRoom_iff _).mp hr
  have hlen := s.box_length k
  refine ⟨_, .accept ((hR.live _).mpr ⟨k, rfl, ho⟩) (by rw [hR.wants k ho]; exact hlists) ?_, ?_⟩
  · rw [hR.mailbox k ho]
    omega
  · rw [hR.mailbox k ho, ← hbox]
    exact hR.of_moved hB hK ho hl rfl hcache

/-- A callback that is called for the oldest event is an operation of the broker. -/
theorem Rep.called (hR : Rep s b) (hB : Boxed s s') (hK : Keeps s s') (ho : (s.suber k).occupied)
    (hl : flow s'.log = flow s.log ++ [.deliver (s.sid k) t d]) :
    ∃ b', Broker.Step (evtQueueMax + 1) evtCachedMax b (.deliver (s.sid k) d) b' ∧ Rep s' b' := by
  have hbox : s.box k = d :: s'.box k := by
    have hdel := hB.channels'.box k
    rw [hK.sid, ledger_deliver hl] at hdel
    change (ledger (s.sid k) s.log).accepted = (ledger (s.sid k) s.log).delivered ++ [d] ++ s'.box k at hdel
    rw [hB.channels.box k, List.append_assoc] at hdel
    exact List.append_cancel_left hdel
  have hcache : (s'.suber k).evtCached.contents = (s.suber k).evtCached.contents := by
    rw [(hB.caches' k).contents, (hB.caches k).contents, hK.sid, ledger_deliver hl]
  exact ⟨_, .deliver ((hR.live _).mpr ⟨k, rfl, ho⟩) ((hR.mailbox k ho).trans hbox),
    hR.of_moved hB hK ho hl rfl hcache⟩

/-- An event that is cached is put aside. -/
theorem Rep.stored {n : ℕ} (hR : Rep s b) (hB : Boxed s s') (hK : Keeps s s') (ho : (s.suber k).occupied)
    (hl : flow s'.log = flow s.log ++ [.store (s.sid k) n d]) (hr : (s.suber k).evtCached.hasRoom = true) :
    ∃ b', Broker.Step (evtQueueMax + 1) evtCachedMax b (.defer (s.sid k) d) b' ∧ Rep s' b' := by
  have hbox : s'.box k = s.box k := by
    have hacc := hB.channels'.box k
    rw [hK.sid, ledger_store hl] at hacc
    exact (List.append_cancel_left ((hB.channels.box k).symm.trans hacc)).symm
  have hcache : (s'.suber k).evtCached.contents = (s.suber k).evtCached.contents ++ [d] := by
    rw [(hB.caches' k).contents, (hB.caches k).contents, hK.sid, ledger_store hl]
    change (((ledger (s.sid k) s.log).stores ++ [(n, d)]).drop (ledger (s.sid k) s.log).retires.length).map Prod.snd = _
    rw [List.drop_append_of_le_length (hB.caches k).le, List.map_append]
    rfl
  have hroom := (WrapRing.hasRoom_iff _).mp hr
  refine ⟨_, .defer ((hR.live _).mpr ⟨k, rfl, ho⟩) ?_, ?_⟩
  · rwa [hR.deferred k ho, WrapRing.contents_length]
  · rw [hR.deferred k ho, ← hcache]
    exact hR.of_deferred hB hK ho hl rfl hbox

/-- The oldest cached event is taken back when it is retired. -/
theorem Rep.retired (hR : Rep s b) (hB : Boxed s s') (hK : Keeps s s') (ho : (s.suber k).occupied)
    (hl : flow s'.log = flow s.log ++ [.retire (s.sid k) t])
    (hc : (s.suber k).evtCached.contents = d :: (s'.suber k).evtCached.contents) :
    ∃ b', Broker.Step (evtQueueMax + 1) evtCachedMax b (.retire (s.sid k)) b' ∧ Rep s' b' := by
  have hbox : s'.box k = s.box k := by
    have hacc := hB.channels'.box k
    rw [hK.sid, ledger_retire hl] at hacc
    exact (List.append_cancel_left ((hB.channels.box k).symm.trans hacc)).symm
  exact ⟨_, .retire ((hR.live _).mpr ⟨k, rfl, ho⟩) ((hR.deferred k ho).trans hc),
    hR.of_deferred hB hK ho hl rfl hbox⟩

/-- The slot on which a thread runs is taken. -/
theorem OwnedInv.occupied (hW : OwnedInv s) (hI : SlotInv s) (hr : s.RunsOn t k) : (s.suber k).occupied :=
  (hI.thread k t (hW t k hr)).occupied

/-- The broker can make the step: the log reports some operations more, and they lead to a broker that the next state
stands for. -/
def Matched (s s' : State abi) (b : Broker ℕ (EvtDesc abi)) : Prop :=
  ∃ os b', ops s'.log = ops s.log ++ os ∧ Broker.Exec (evtQueueMax + 1) evtCachedMax b os b' ∧ Rep s' b'

theorem Matched.of_step {p : Broker.Op ℕ (EvtDesc abi)} (hl : ops s'.log = ops s.log ++ [p])
    (h : ∃ b', Broker.Step (evtQueueMax + 1) evtCachedMax b p b' ∧ Rep s' b') : Matched s s' b := by
  obtain ⟨b', hs, hR⟩ := h
  exact ⟨_, _, hl, .single hs, hR⟩

/-- A step that reports nothing. -/
theorem Matched.of_rep (hp : s.log <+: s'.log) (hl : flow s'.log = flow s.log) (hn : news s'.log = news s.log)
    (hR : Rep s' b) : Matched s s' b := by
  have hops := ops_of_flow hp (hl.trans (List.append_nil _).symm) hn
  exact ⟨[], b, by simpa [ops] using hops, .nil, hR⟩

/-- The thread does not stand at the head of a fan-out loop. -/
def State.offLoop (s : State abi) (t : Tid) : Prop := ∀ f rest i, s.frames t = .post f :: rest → f.pc ≠ .loop i

theorem State.offLoop_of_post {f : PostFrame abi} (hf : s.frames t = .post f :: rest) (hp : ∀ i, f.pc ≠ .loop i) :
    s.offLoop t := fun f' rest' j hf' => by
  obtain ⟨rfl, -⟩ : f = f' ∧ rest = rest' := by simpa using hf.symm.trans hf'
  exact hp j

theorem News.of_keeps (h : News s s' t) (hK : Keeps s s') (hp : s.offLoop t) : news s'.log = news s.log :=
  h.of_frames hK.nextSid (fun i ho => (Suber.occupied_congr (hK.args i)).mpr ho) hp

/-- A step that moves an event. -/
theorem Matched.moved {p : Broker.Op ℕ (EvtDesc abi)} (hp : s.log <+: s'.log) (hN : News s s' t) (hK : Keeps s s')
    (hoff : s.offLoop t) (hl : flow s'.log = flow s.log ++ [o]) (ho : o.op = some p)
    (h : ∃ b', Broker.Step (evtQueueMax + 1) evtCachedMax b p b' ∧ Rep s' b') : Matched s s' b :=
  .of_step ((ops_of_flow hp hl (hN.of_keeps hK hoff)).trans (by simp [ops, ho])) h

/-- A step that writes nothing but what the log does not report may still call a SYNC callback. -/
theorem Matched.quiet (hR : Rep s b) (hB : Boxed s s') (hp : s.log <+: s'.log) (hN : News s s' t)
    (hc : s'.ctx.pEvtSubers = s.ctx.pEvtSubers) (hst : Still s s') : Matched s s' b := by
  have hK : Keeps s s' := ⟨hst.sid, hst.nextSid, fun i => by rw [State.suber, hc]⟩
  have hR' := hR.still hB hK hst.flow
  cases hN with
  | quiet hl => exact .of_rep hp hst.flow hl hR'
  | subscribed _ hn =>
    have := hst.nextSid
    omega
  | removed _ ho ho' =>
    rw [State.suber, hc] at ho'
    exact absurd ho ho'
  | @sync f rest i hf hpc hlists hl =>
    have ho : (s.suber i).occupied := EvtSubArgs.cb_ne_null_of_lists hlists
    refine .of_step (p := .notify (s.sid i) (s.desc t f)) (ops_of_news hp hst.flow hl)
      ⟨b, .notify ((hR.live _).mpr ⟨i, rfl, ho⟩) ?_, hR'⟩
    rw [hR.wants i ho]
    exact hlists

/-- A slot that is freed had nothing waiting and nothing cached. -/
theorem Matched.freed {f : UnsubFrame} (hR : Rep s b) (hB : Boxed s s') (hp : s.log <+: s'.log) (hN : News s s' t)
    (hf : s.frames t = .unsub f :: rest)
    (hc : s'.ctx.pEvtSubers = Function.update s.ctx.pEvtSubers k (s.suber k).freed) (hst : Still s s')
    (hbox : s.box k = []) (hcache : (s.suber k).evtCached.contents = []) : Matched s s' b := by
  have hR' := hR.freed hB.slots hc hst.sid hst.nextSid fun j =>
    hB.channels.box_eq hB.channels' (congrFun hst.sid j) (ledger_same hst.flow _)
  cases hN with
  | quiet hl _ hocc =>
    have ho : ¬ (s.suber k).occupied := fun ho => by
      have := hocc k ho
      simp [State.suber, hc] at this
    rw [Set.sdiff_singleton_eq_self (hR.notMem_live hB.slots ho)] at hR'
    exact .of_rep hp hst.flow hl hR'
  | subscribed hf' | sync hf' => simp [hf] at hf'
  | @removed f' rest' j _ ho ho' hl =>
    obtain rfl : j = k := by
      by_contra hjk
      rw [State.suber, hc, Function.update_of_ne hjk] at ho'
      exact ho' ho
    exact .of_step (ops_of_news hp hst.flow hl) ⟨_, .cancel ((hR.live _).mpr ⟨j, rfl, ho⟩)
      ((hR.mailbox j ho).trans hbox) ((hR.deferred j ho).trans hcache), hR'⟩

/-- **The step.**  What a step of any thread does is one operation of the broker, or nothing that it knows of. -/
theorem rep_step (hr : Reach (fun s x => noSelfUnsub s x = true) maxSuberNum clients s)
    (hok : noSelfUnsub s (t, a) = true) (hn : next s (t, a) = some s') (hR : Rep s b) : Matched s s' b := by
  have hr' : Reach (fun s x => noSelfUnsub s x = true) maxSuberNum clients s' := hr.tail (t, a) hok hn
  obtain ⟨hh, h⟩ := next_trans hn
  have hT := threadInv_reach hr
  have hA := allocInv_reach hr
  have hH := holderInv_reach hr
  have hI := slotInv_reach hr
  obtain ⟨hreuse, hW⟩ := owned_reach hr
  obtain ⟨hC, hhead⟩ := cache_reach (fun _ _ h => h) hreuse
  have hB : Boxed s s' :=
    ⟨flowInv_reach hr, flowInv_reach hr', hC, (cache_reach (fun _ _ h => h) (owned_reach hr').1).1, hI⟩
  have hN := h.news hA
  have hlog := h.log_prefix
  have hstill : Keeps s s' → s.offLoop t → flow s'.log = flow s.log → Matched s s' b := fun hK hoff hl =>
    .of_rep hlog hl (hN.of_keeps hK hoff) (hR.still hB hK hl)
  cases h.effect hT hA
  case quiet hc hst => exact .quiet hR hB hlog hN hc hst
  case flagged hf _ _ hc hst | kept hf _ _ hc hst =>
    exact hstill (.of_update hst.sid hst.nextSid hc rfl) (by simp [State.offLoop, hf]) hst.flow
  case started hf hp hx hc _ _ hst =>
    exact hstill (.of_update hst.sid hst.nextSid hc hx.args) (State.offLoop_of_post hf (by simp [hp])) hst.flow
  case took hf _ _ _ hc hs hn' hl _ => exact hstill (.of_update hs hn' hc rfl) (by simp [State.offLoop, hf]) hl
  case accepted f i rest hf hp hroom hc _ _ hs hn' hl _ =>
    have hK : Keeps s s' := .of_update hs hn' hc rfl
    have hlists : (s.suber i).args.lists (s.desc t f) = true := by
      rw [desc_of_noReuse (fun _ _ h => h) hreuse hh hf]
      exact lists_of_slot (fun _ _ h => h) hreuse hf (by rw [hp]; rfl)
    exact .moved hlog hN hK (State.offLoop_of_post hf (by simp [hp])) hl rfl (hR.accepted hB hK hl hlists hroom)
  case called hf hb ho hc hs hn' hl _ =>
    have hK : Keeps s s' := ⟨hs, hn', fun i => by rw [State.suber, hc]⟩
    exact .moved hlog hN hK (by simp [State.offLoop, hf]) hl rfl (hR.called hB hK ho hl)
  case stored f i rest hf hp htls hroom hc hs hn' hl _ =>
    have hK : Keeps s s' := .of_update hs hn' hc rfl
    exact .moved hlog hN hK (State.offLoop_of_post hf (by simp [hp])) hl rfl
      (hR.stored hB hK (hW.occupied hI (hT.async_of_tls (by simp [hf]) htls)) hl hroom)
  case retired i g p r hf hb hres hc hs hn' hl _ =>
    have hK : Keeps s s' := .of_update hs hn' hc rfl
    have hpop : (s.suber i).evtCached.contents = p.desc :: (s'.suber i).evtCached.contents := by
      rw [((hC i).pop (hhead hh t i p (by rw [hb]; rfl)).head).2.1, State.suber, State.suber, hc, Function.update_self]
    exact .moved hlog hN hK (by simp [State.offLoop, hf]) hl rfl
      (hR.retired hB hK (hW.occupied hI ⟨g, _, hb⟩) hl hpop)
  case filled f i x hf hi hfree hx _ hc hs hn' hl hb =>
    have hF : Fills s s' i :=
      ⟨hfree, by simpa [State.suber, hc] using hx, fun j hj => by simp [State.suber, hc, hj], hs, hn', hb⟩
    cases hN with
    | quiet _ hno => omega
    | subscribed _ _ hl' => exact .of_step (ops_of_news hlog hl hl') (hR.filled hI hF)
    | removed hf' | sync hf' => simp [hf] at hf'
  case freed f i rest hf hst hc hsame =>
    obtain ⟨hhand, hempty⟩ := hB.channels.stopped hI (goneInv_reach hr) hW hok hf hst
    refine .freed hR hB hlog hN hf hc hsame (by rw [State.box, hhand, hempty, List.append_nil]) ?_
    by_contra hne
    obtain ⟨u, hu⟩ := (drainInv_reach hr).held i hne
    exact hW.stopped hok hf hst hu

/-! ### The law -/

theorem rep_init : Rep (State.init maxSuberNum clients) Broker.empty := by
  refine ⟨fun g => ?_, fun g => ?_, fun i ho => ?_, fun i ho => ?_, fun i ho => ?_, fun _ _ => ⟨rfl, rfl⟩⟩
  · refine iff_of_false (Set.notMem_empty g) ?_
    rintro ⟨h0, hlt⟩
    exact h0 (Nat.lt_one_iff.mp hlt)
  · simp [Broker.empty, State.init, State.suber, Ctx.init, Suber.zero, Suber.occupied]
  all_goals simp [State.init, State.suber, Ctx.init, Suber.zero, Suber.occupied] at ho

/-- **The connectionless mode is a broker.**  In every run in which no callback unsubscribes its own subscription, what
the log reports is what a broker does that has room for two events in each mailbox and for four deferred ones, and that
puts into a mailbox what the subscription lists. -/
theorem broker_refines (h : Reach (fun s x => noSelfUnsub s x = true) maxSuberNum clients s) :
    ∃ b, Broker.Exec (evtQueueMax + 1) evtCachedMax .empty (ops s.log) b ∧ Rep s b :=
  Simulation.exec_of_reach Rep (fun s => ops s.log) rep_init rfl (fun _ _ _ _ hr hok hn hR => rep_step hr hok hn hR) h

/-- **The life of a subscription in the log**, whatever the threads do in the meantime. -/
theorem subscription_life (h : Reach (fun s x => noSelfUnsub s x = true) maxSuberNum clients s) (g : ℕ) :
    Broker.Life g (ops s.log) := by
  obtain ⟨b, hb, -⟩ := Simulation.exec_of_reach Rep (fun s => ops s.log) rep_init rfl
    (fun _ _ _ _ hr hok hn hR => rep_step hr hok hn hR) h
  exact Broker.Exec.life hb g

/-- An event is delivered, and then the subscription is ended. -/
def deliveredAndEnded : List (Tid × Act lp64) :=
  firstCallback 0 ++ [(1, .ret .success), (1, .go), (1, .go), (1, .go), (0, .call (.unsubEVT (some ⟨1, 1⟩))), (0, .go),
    (0, .go), (0, .go), (0, .signal (some 1)), (1, .go), (0, .go)]

/-- The broker makes a subscription, accepts an event for it, delivers it and cancels the subscription. -/
theorem broker_refines_ended : ∃ (s : State lp64) (b : Broker ℕ (EvtDesc lp64)),
    ops s.log = [.subscribe 1, .accept 1 (.ofID lp64 7), .deliver 1 (.ofID lp64 7), .cancel 1] ∧
      Broker.Exec (evtQueueMax + 1) evtCachedMax .empty (ops s.log) b ∧ Rep s b := by
  obtain ⟨s, hr, hs⟩ := reach_of_run (fun s x => noSelfUnsub s x = true) (1 : ULong lp64) 1 deliveredAndEnded
    (fun s => decide (ops s.log =
      [.subscribe 1, .accept 1 (.ofID lp64 7), .deliver 1 (.ofID lp64 7), .cancel 1])) (by decide +kernel)
  obtain ⟨b, hb, hR⟩ := broker_refines hr
  exact ⟨s, b, of_decide_eq_true hs, hb, hR⟩

/-- The subscription is over in the log. -/
theorem subscription_life_ended :
    ∃ s : State lp64, .cancel 1 ∈ ops s.log ∧ Broker.Life 1 (ops s.log) := by
  obtain ⟨s, hr, hs⟩ := reach_of_run (fun s x => noSelfUnsub s x = true) (1 : ULong lp64) 1 deliveredAndEnded
    (fun s => decide (.cancel 1 ∈ ops s.log)) (by decide +kernel)
  exact ⟨s, of_decide_eq_true hs, subscription_life hr 1⟩

end PlatIF.Ioc
