import PlatIF.Ioc.PostOutcome

/-!
# SYNC and ASYNC posts of one event

A SYNC post calls the callbacks itself, slot by slot; an ASYNC post leaves them to the threads of the slots.  From a
quiescent state in which the poster can have the context mutex, both serve the same subscriptions, and the schedules of
the ASYNC post only permute the calls.

* `fanOutResult_sync`, `fanOutResult_async` — what the two loops return;
* `async_agrees_sync` — the outcomes of the one in terms of the other.
-/

namespace PlatIF.Ioc

variable {abi : Abi} {s : State abi} {p : Tid} {d : EvtDesc abi} {r : TosResult} {maxSuberNum : ULong abi}
  {clients : ℕ} {o o' : Option Options} {ok : State abi → Tid × Act abi → Prop} {ans : Called abi → TosResult}
  {l : List ℕ} {calls : List (Called abi)}

/-! ### What the loops return -/

/-- The SYNC loop returns what the last callback has answered. -/
theorem fanOutResult_sync (hy : s.syncs o = true) :
    fanOutResult (l.map (s.visitAt d o ans)) = ((l.map (s.calledAt d)).getLast?).elim .noEvtSuber ans := by
  rw [fanOutResult, List.getLast?_map, List.getLast?_map]
  cases l.getLast? with
  | none => rfl
  | some i =>
    show (s.visitAt d o ans i).2.outcome = ans (s.calledAt d i)
    rw [State.visitAt, hy]
    rfl

/-- The ASYNC loop returns success as soon as it has pushed the event at all. -/
theorem fanOutResult_async (hy : s.syncs o = false) :
    fanOutResult (l.map (s.visitAt d o ans)) =
      ((l.map (s.calledAt d)).getLast?).elim .noEvtSuber fun _ => .success := by
  rw [fanOutResult, List.getLast?_map, List.getLast?_map]
  cases l.getLast? with
  | none => rfl
  | some i =>
    show (s.visitAt d o ans i).2.outcome = .success
    rw [State.visitAt, hy]
    rfl

/-- The options decide, since nothing sets the mode of the context. -/
theorem syncs_reach (h : Reach ok maxSuberNum clients s) (o : Option Options) : s.syncs o = isSyncMode o := by
  rw [State.syncs, isSyncMode_reach h, Bool.or_false]

/-- What decides the outcomes of a post that obtains the mutex: the calls to be made, and what is returned without any. -/
theorem postOutcome_of_lockable (hl : s.lockable p = true) (d : EvtDesc abi) (ans : Called abi → TosResult) :
    ∃ (L : List (Called abi)) (r₀ : TosResult),
      (∀ o, s.syncs o = true → s.postOutcome p d o ans = some (L.getLast?.elim r₀ ans, L)) ∧
      ∀ o, s.syncs o = false → s.postOutcome p d o ans = some (L.getLast?.elim r₀ fun _ => .success, L) := by
  cases ha : s.ctx.isAlloced with
  | true =>
    refine ⟨(s.matching d s.ctx.maxSuberNum.toNat).map (s.calledAt d), .noEvtSuber, fun o hy => ?_, fun o hy => ?_⟩
    · rw [State.postOutcome_fanOut hl ha, fanOutResult_sync hy]
    · rw [State.postOutcome_fanOut hl ha, fanOutResult_async hy]
  | false =>
    refine ⟨[], .notFound, fun o _ => ?_, fun o _ => ?_⟩
    · exact State.postOutcome_notFound hl ha
    · exact State.postOutcome_notFound hl ha

/-! ### The law -/

/-- The outcomes of an ASYNC post, with the options `o'`, are those of the SYNC post of the same event, with the options
`o`, up to the order of the calls and the answer of the last one. -/
structure Agrees (s : State abi) (p : Tid) (d : EvtDesc abi) (o o' : Option Options)
    (ans : Called abi → TosResult) : Prop where
  /-- The SYNC post has one outcome. -/
  sync : ∃ r calls, ∀ r₁ calls₁, Outcome s p d o ans r₁ calls₁ ↔ r₁ = r ∧ calls₁ = calls
  /-- The ASYNC post makes the same calls, and every order of them is possible. -/
  calls : ∀ r calls calls', Outcome s p d o ans r calls →
    ((∃ r', Outcome s p d o' ans r' calls') ↔ calls'.Perm calls)
  result : ∀ r r' calls calls', Outcome s p d o ans r calls → Outcome s p d o' ans r' calls' →
    (r' = r ↔ ∀ c ∈ calls.getLast?, ans c = .success)

/-- **An ASYNC post agrees with the SYNC post of the same event**, in every schedule of the steps of all threads: it
causes the same calls in some order, every order comes about, and the two return the same result exactly if the last
callback of the SYNC post answers with success or there is none.  The callbacks only answer, as in `Outcome`: a SYNC
callback shares the descriptor with the ones that follow, an ASYNC one has a copy of its own. -/
theorem async_agrees_sync (h₀ : Reach ok maxSuberNum clients s) (hq : s.Quiet) (hb : s.base p = .client)
    (hl : s.lockable p = true) (d : EvtDesc abi) (ho : isSyncMode o = true) (ho' : isSyncMode o' = false)
    (ans : Called abi → TosResult) : Agrees s p d o o' ans := by
  obtain ⟨L, r₀, hsync, hasync⟩ := postOutcome_of_lockable hl d ans
  have hy : s.syncs o = true := (syncs_reach h₀ o).trans ho
  have hy' : s.syncs o' = false := (syncs_reach h₀ o').trans ho'
  have hS : ∀ r calls, Outcome s p d o ans r calls ↔ r = L.getLast?.elim r₀ ans ∧ calls = L := by
    intro r calls
    rw [outcome_iff h₀ hq hb, hsync o hy]
    constructor
    · rintro ⟨L', hL', -, hcalls⟩
      obtain ⟨rfl, rfl⟩ := Prod.mk.inj (Option.some.inj hL')
      exact ⟨rfl, hcalls hy⟩
    · rintro ⟨rfl, rfl⟩
      exact ⟨_, rfl, .refl _, fun _ => rfl⟩
  have hA : ∀ r calls, Outcome s p d o' ans r calls ↔
      r = (L.getLast?.elim r₀ fun _ => .success) ∧ calls.Perm L := by
    intro r calls
    rw [outcome_iff h₀ hq hb, hasync o' hy']
    constructor
    · rintro ⟨L', hL', hp, -⟩
      obtain ⟨rfl, rfl⟩ := Prod.mk.inj (Option.some.inj hL')
      exact ⟨rfl, hp⟩
    · rintro ⟨rfl, hp⟩
      exact ⟨_, rfl, hp, fun h => by simp [hy'] at h⟩
  constructor
  case sync => exact ⟨_, L, hS⟩
  case calls =>
    intro r calls calls' h
    obtain ⟨-, rfl⟩ := (hS r calls).mp h
    constructor
    · rintro ⟨r', h'⟩
      exact ((hA r' calls').mp h').2
    · intro hp
      exact ⟨_, (hA _ calls').mpr ⟨rfl, hp⟩⟩
  case result =>
    intro r r' calls calls' h h'
    obtain ⟨rfl, rfl⟩ := (hS r calls).mp h
    obtain ⟨rfl, -⟩ := (hA r' calls').mp h'
    cases calls.getLast? with
    | none => simp
    | some c =>
      show TosResult.success = ans c ↔ ∀ x ∈ some c, ans x = .success
      simp [eq_comm]

/-- Two subscriptions list event `7`, and the callbacks answer that it was not found.  The SYNC post calls slot `0` first
and hands the answer on; the ASYNC post may have slot `1` called first, and returns something else. -/
theorem async_agrees_sync_two : ∃ (s : State lp64) (r' : TosResult),
    Outcome s 0 (.ofID lp64 7) (some ⟨optIDSyncMode, 0#32⟩) (fun _ => .notFound) .notFound
      [⟨0, 1, 1, .ofID lp64 7⟩, ⟨1, 2, 2, .ofID lp64 7⟩] ∧
    Outcome s 0 (.ofID lp64 7) none (fun _ => .notFound) r'
      [⟨1, 2, 2, .ofID lp64 7⟩, ⟨0, 1, 1, .ofID lp64 7⟩] ∧ r' ≠ .notFound := by
  obtain ⟨s, hr, hs⟩ := reach_of_run (fun _ _ => True) (2 : ULong lp64) 1
    [(0, .call (.subEVT ⟨1, 1, some [7]⟩)), (0, .go), (0, .call (.subEVT ⟨2, 2, some [7]⟩)), (0, .go)]
    (fun s : State lp64 => decide s.Quiet && decide (s.base 0 = .client) && s.lockable 0 &&
      decide (s.postOutcome 0 (.ofID lp64 7) (some ⟨optIDSyncMode, 0#32⟩) (fun _ => .notFound) =
        some (.notFound, [⟨0, 1, 1, .ofID lp64 7⟩, ⟨1, 2, 2, .ofID lp64 7⟩]))) (by decide +kernel)
  simp only [Bool.and_eq_true, decide_eq_true_eq, and_assoc] at hs
  obtain ⟨hq, hb, hl, ho⟩ := hs
  have h := Outcome.of_eq hr hq hb ho (.refl _) fun _ => rfl
  have hA : Agrees s 0 (.ofID lp64 7) (some ⟨optIDSyncMode, 0#32⟩) none fun _ => .notFound :=
    async_agrees_sync hr hq hb hl _ (by decide) (by decide) _
  obtain ⟨r', h'⟩ := (hA.calls _ _ _ h).mpr (.swap _ _ _)
  refine ⟨s, r', h, h', fun hr' => ?_⟩
  have hans := (hA.result _ _ _ _ h h').mp hr'
  simp at hans

end PlatIF.Ioc
