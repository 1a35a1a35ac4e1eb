import PlatIF.Evt.Payload
import PlatIF.Lib.Numbering

/-!
# Sequence numbers

A post gives its event the next number of the queue, whoever posts.  The comment at `SeqID` has the numbers per
publisher.

* `State.seqIDs` — the numbers of one publisher's events, in posting order;
* `State.inTurn` — the events of the other publishers are none, up to a wrap of the number;
* `seqIDs_consecutive` — in every run of such posts the numbers of each publisher are consecutive, and an accepted post
  keeps them so exactly when it is one.
-/

namespace PlatIF.Evt

open PlatIF.Numbering

variable {abi : Abi} {s s' : State abi} {t : Thread} {a : Act abi} {clients q : ℕ}
  {ok : State abi → Thread × Act abi → Prop}

/-- How many events queue `q` has accepted from publishers other than `id`. -/
def State.othersIn (s : State abi) (q : ℕ) (id : EvtOperID abi) : ℕ :=
  others EvtDesc.evtPuberID id (s.accepted q)

/-- The `SeqID`s of the events of publisher `id` that queue `q` accepted, in posting order. -/
def State.seqIDs (s : State abi) (q : ℕ) (id : EvtOperID abi) : List (BitVec 32) :=
  ownNums EvtDesc.evtPuberID EvtDesc.seqID id (s.accepted q)

/-- The step is not a post that is accepted after a number of other publishers' events that is no multiple of `2 ^ 32`. -/
def State.inTurn (s : State abi) (x : Thread × Act abi) : Bool :=
  match s.calls x.1, x.2 with
  | some (.postEvtSRT id _ (.lock (some q))), .run _ => (s.queue q).isFull || decide (2 ^ 32 ∣ s.othersIn q id)
  | _, _ => true

/-- The events of a queue are numbered by position, and its own number is the next one. -/
theorem accepted_numbered (hr : Reach ok clients s) (q : ℕ) :
    Numbered EvtDesc.seqID (s.accepted q) ∧ (s.queue q).seqID = BitVec.ofNat 32 (s.accepted q).length := by
  obtain ⟨hU, hI⟩ := queue_reach hr
  cases hi : (s.queues q).mutexInit with
  | true =>
    obtain ⟨r, hfifo, -⟩ := hI q hi
    exact ⟨numbered_of_getElem? hfifo.seqIDs, hfifo.seqID⟩
  | false =>
    obtain ⟨hq, hnone, -⟩ := hU q hi
    rw [hnone, hq]
    exact ⟨rfl, rfl⟩

/-- What an accepted post adds to a queue. -/
theorem accepted_next (hr : Reach ok clients s) (h : Trans s t a s') (hacc : s'.accepted q ≠ s.accepted q) :
    ∃ d, s'.accepted q = s.accepted q ++ [d] ∧
      (s.inTurn (t, a) = true ↔ 2 ^ 32 ∣ others EvtDesc.evtPuberID d.evtPuberID (s.accepted q)) := by
  cases h.queueStep (liveInv_reach hr) q with
  | same _ _ ha | init _ _ _ ha | take _ _ _ _ _ ha => exact absurd ha hacc
  | post hrun hc _ _ hfull _ ha | pass hrun hc _ _ hfull _ _ ha =>
    subst hrun
    refine ⟨_, ha, ?_⟩
    rw [(EvtQueue.post_eq hfull _ _).1]
    simp only [State.inTurn, hc, hfull, Bool.false_or]
    exact decide_eq_true_iff

/-- **One accepted post.**  It keeps the numbers of every publisher consecutive exactly when it is in turn. -/
theorem ownNumbered_next (hr : Reach ok clients s) (hN : OwnNumbered EvtDesc.evtPuberID EvtDesc.seqID (s.accepted q))
    (hn : next s (t, a) = some s') (hacc : s'.accepted q ≠ s.accepted q) :
    OwnNumbered EvtDesc.evtPuberID EvtDesc.seqID (s'.accepted q) ↔ s.inTurn (t, a) = true := by
  have hr' : Reach (fun _ _ => True) clients s' := (hr.mono fun _ _ _ => trivial).tail (t, a) trivial hn
  obtain ⟨d, hd, hturn⟩ := accepted_next hr (next_trans hn).2 hacc
  rw [ownNumbered_iff_turns (accepted_numbered hr' q).1, hd, Turns.snoc_iff, hturn]
  exact and_iff_right ((ownNumbered_iff_turns (accepted_numbered hr q).1).mp hN)

theorem ownNumbered_reach (hr : Reach (fun s x => s.inTurn x = true) clients s) (q : ℕ) :
    OwnNumbered EvtDesc.evtPuberID EvtDesc.seqID (s.accepted q) := by
  refine Runs.ReachUnder.invariant
    (P := fun s : State abi => OwnNumbered EvtDesc.evtPuberID EvtDesc.seqID (s.accepted q)) (fun id => rfl) ?_ hr
  intro s s' x hr hN hok hn
  by_cases hacc : s'.accepted q = s.accepted q
  · rw [hacc]
    exact hN
  · exact (ownNumbered_next hr hN hn hacc).mpr hok

/-- **Sequence numbers per publisher.**  In every run in which no post is accepted out of turn, the events of each
publisher have the numbers `0, 1, 2, ...` modulo `2 ^ 32` in posting order, and the number of the next event depends on
the accepted posts alone; a post that is accepted keeps that so exactly when it is in turn. -/
theorem seqIDs_consecutive (hr : Reach (fun s x => s.inTurn x = true) clients s) :
    (∀ q id, s.seqIDs q id = numbers 32 (s.seqIDs q id).length) ∧
    (∀ q, (s.queue q).seqID = BitVec.ofNat 32 (s.accepted q).length) ∧
    ∀ t a s' q, next s (t, a) = some s' → s'.accepted q ≠ s.accepted q →
      ((∀ id, s'.seqIDs q id = numbers 32 (s'.seqIDs q id).length) ↔ s.inTurn (t, a) = true) := by
  refine ⟨fun q id => ownNumbered_reach hr q id, fun q => (accepted_numbered hr q).2, ?_⟩
  intro t a s' q hn hacc
  exact ownNumbered_next hr (ownNumbered_reach hr q) hn hacc

/-- Two operators are registered and the processor is started; then each of them posts. -/
def twoPublishers : List (Thread × Act lp64) :=
  ([(.client 0, .call (.initEvtManger (some ⟨0, 0, 0, 0⟩))), (.client 0, .go),
    (.client 0, .call (.regOper ⟨0⟩)), (.client 0, .go), (.client 0, .go),
    (.client 0, .call (.regOper ⟨1⟩)), (.client 0, .go), (.client 0, .go)] : List (Thread × Act lp64)) ++
    enabling (.client 0) ++ postOf (defineEvtDesc lp64 evtIDTestKeepAlive) ++
    [(.client 0, .go), (.client 0, .call (.postEvtSRT 1 (.own (defineEvtDesc lp64 evtIDTestKeepAlive)))),
     (.client 0, .go), (.client 0, .go), (.client 0, .go)]

/-- The first event of the second publisher has the number `1`. -/
theorem second_publisher_starts_at_one :
    ∃ s : State lp64, Reach (fun _ _ => True) 1 s ∧ s.seqIDs 0 0 = [0] ∧ s.seqIDs 0 1 = [1] ∧
      ¬ ∀ q id, s.seqIDs q id = numbers 32 (s.seqIDs q id).length := by
  obtain ⟨s, hr, hs⟩ := reach_of_run (fun _ _ => True) 1 twoPublishers
    (fun s => decide (s.seqIDs 0 0 = [0] ∧ s.seqIDs 0 1 = [1])) (by decide +kernel)
  obtain ⟨h0, h1⟩ := of_decide_eq_true hs
  refine ⟨s, hr, h0, h1, fun h => ?_⟩
  have hone := h 0 1
  rw [h1] at hone
  exact absurd hone (by decide)

/-- One publisher posts twice. -/
theorem seqIDs_consecutive_one :
    ∃ s : State lp64, (s.seqIDs 0 0).length = 2 ∧ s.seqIDs 0 0 = numbers 32 2 := by
  obtain ⟨s, hr, hs⟩ := reach_of_run (fun s x => s.inTurn x = true) 1
    (startedDepthOne ++ postOf (defineEvtDesc lp64 evtIDTestKeepAlive) ++ [(.client 0, .go), (.procer 0, .go)] ++
      postOf (defineEvtDesc lp64 evtIDTestKeepAlive))
    (fun s => decide ((s.seqIDs 0 0).length = 2)) (by decide +kernel)
  have hlen := of_decide_eq_true hs
  have hnum := (seqIDs_consecutive hr).1 0 0
  rw [hlen] at hnum
  exact ⟨s, hlen, hnum⟩

end PlatIF.Evt
