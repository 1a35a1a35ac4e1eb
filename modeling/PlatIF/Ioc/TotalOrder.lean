import PlatIF.Ioc.Delivery
import PlatIF.Lib.Blocks

/-!
# One order of events for all subscriptions

A fan-out is one call of `postEVT`, or one replay, that has obtained the context mutex and pushes its event into the
queues of the matching subscriptions.  It may wait for one of them as long as it likes: nobody else pushes before it
has released the mutex.  So the pushes of all fan-outs stand in blocks in the log (`fanOutInv_reach`), any two fan-outs
have an order, and every subscription accepts, and is given, their events in that order.

The log tells which pushes belong to one fan-out: a thread makes one fan-out at a time and runs no user code in it, so a
fan-out is named by its thread and the number of calls the thread had returned from (`Trans.fanOut_next`).
-/

namespace PlatIF.Ioc

variable {abi : Abi} {s s' : State abi} {t u : Tid} {a : Act abi} {i g : ℕ} {f : PostFrame abi}
  {rest : List (Frame abi)} {ok : State abi → Tid × Act abi → Prop} {maxSuberNum : ULong abi}
  {clients : ℕ}

/-! ### Fan-outs in the log -/

/-- A fan-out: its thread, and the number of calls that thread had returned from before. -/
abbrev FanOut := Tid × ℕ

/-- A push of a fan-out into the queue of a subscription. -/
structure Push (abi : Abi) where
  sid : ℕ
  fanOut : FanOut
  pEvtDesc : EvtDesc abi
  deriving DecidableEq

/-- How many calls thread `t` has returned from. -/
def returns (t : Tid) (log : List (Obs abi)) : ℕ :=
  log.countP fun
    | .ret u _ => u == t
    | _ => false

/-- The push that a log entry reports, with the entries before it. -/
def Obs.push (past : List (Obs abi)) : Obs abi → List (Push abi)
  | .accept g t _ d => [⟨g, (t, returns t past), d⟩]
  | _ => []

/-- The pushes that the entries after `past` report. -/
def pushesAfter : List (Obs abi) → List (Obs abi) → List (Push abi)
  | _, [] => []
  | past, o :: os => o.push past ++ pushesAfter (past ++ [o]) os

/-- All pushes of a log, in order. -/
def pushes (log : List (Obs abi)) : List (Push abi) := pushesAfter [] log

/-- The fan-outs of all pushes. -/
def fanOuts (log : List (Obs abi)) : List FanOut := (pushes log).map Push.fanOut

/-- The pushes into the queue of subscription `g`. -/
def acceptsOf (g : ℕ) (log : List (Obs abi)) : List (Push abi) := (pushes log).filter fun p => p.sid == g

/-- The pushes whose events the async thread of subscription `g` has handed to the callback: as many as there were
deliveries. -/
def deliversOf (g : ℕ) (log : List (Obs abi)) : List (Push abi) :=
  (acceptsOf g log).take (delivered g log).length

@[simp] theorem returns_append (l l' : List (Obs abi)) : returns t (l ++ l') = returns t l + returns t l' :=
  List.countP_append

theorem pushesAfter_append (past l l' : List (Obs abi)) :
    pushesAfter past (l ++ l') = pushesAfter past l ++ pushesAfter (past ++ l) l' := by
  induction l generalizing past with
  | nil => simp [pushesAfter]
  | cons o l ih => simp [pushesAfter, ih, List.append_assoc]

theorem pushes_append (l l' : List (Obs abi)) : pushes (l ++ l') = pushes l ++ pushesAfter l l' :=
  pushesAfter_append [] l l'

theorem pushes_concat (l : List (Obs abi)) (o : Obs abi) : pushes (l ++ [o]) = pushes l ++ o.push l := by
  simp [pushes_append, pushesAfter]

/-- The pushes into a queue are what was accepted for the subscription. -/
theorem acceptsOf_map (g : ℕ) (log : List (Obs abi)) :
    (acceptsOf g log).map Push.pEvtDesc = accepted g log := by
  induction log using List.reverseRecOn with
  | nil => rfl
  | append_singleton l o ih =>
    rw [acceptsOf, accepted] at *
    rw [pushes_concat, List.filter_append, List.map_append, ih, List.filterMap_append]
    cases o with
    | accept g' t b d =>
      by_cases hg : g' = g <;> simp [Obs.push, hg]
    | _ => simp [Obs.push]

theorem acceptsOf_sublist (g : ℕ) (log : List (Obs abi)) :
    ((acceptsOf g log).map Push.fanOut).Sublist (fanOuts log) :=
  List.filter_sublist.map _

theorem deliversOf_sublist (g : ℕ) (log : List (Obs abi)) :
    ((deliversOf g log).map Push.fanOut).Sublist (fanOuts log) :=
  ((List.take_sublist ..).map _).trans (acceptsOf_sublist g log)

/-! ### What a step logs -/

/-- A step pushes for the ASYNC visit that its thread makes, or not at all. -/
theorem Trans.pushes_next (h : Trans s t a s') : pushes s'.log = pushes s.log ∨
    ∃ f f' rest i, s.frames t = .post f :: rest ∧ f.pc = .push i ∧ s'.frames t = .post f' :: rest ∧
      f'.pc ≠ .lock ∧ f'.pOptions = f.pOptions ∧
      s'.log = s.log ++ [.accept (s.sid i) t f.isReplay (s.desc t f)] := by
  cases h
  case postAccept hf hp _ _ =>
    exact .inr ⟨_, _, _, _, hf, hp, Function.update_self .., by simp, rfl, by simp⟩
  case unsubSignal hw | postSignal hw | postRetrySignal hw =>
    obtain ⟨b, rfl, -⟩ := hw.eq
    exact .inl rfl
  case unsubFreeNext | unsubFreeDone =>
    refine .inl ?_
    simp only [State.freeSlot, State.setFrames, State.setCtx, State.ret_eq]
    split <;> simp [pushes_append, pushesAfter, Obs.push]
  all_goals exact .inl (by simp [pushes_append, pushesAfter, Obs.push])

theorem Trans.returns_le (h : Trans s t a s') : returns u s.log ≤ returns u s'.log := by
  cases h
  case unsubSignal hw | postSignal hw | postRetrySignal hw =>
    obtain ⟨b, rfl, -⟩ := hw.eq
    exact le_rfl
  all_goals simp

/-- A fan-out stays where it is until its call returns, so all its pushes bear one name. -/
theorem Trans.fanOut_next (h : Trans s t a s') (hf : s.frames t = .post f :: rest) (hp : f.pc ≠ .lock)
    (hs : s.isSync f = false) : returns t s'.log = returns t s.log + 1 ∨
      returns t s'.log = returns t s.log ∧
        ∃ f', s'.frames t = .post f' :: rest ∧ f'.pc ≠ .lock ∧ f'.pOptions = f.pOptions := by
  have hw : ∀ {g r}, s.frames t = .post g :: r → f = g ∧ rest = r := fun h => by
    simpa using hf.symm.trans h
  cases h
  case postSync hf' _ _ _ hs' =>
    obtain ⟨rfl, -⟩ := hw hf'
    simp [hs] at hs'
  case postLock hf' hp' _ _ | postNotFound hf' hp' _ _ | postBusy hf' hp' _ _ | postCache hf' hp' _ _ _ _ _ |
      postCacheFull hf' hp' _ _ _ _ _ =>
    obtain ⟨rfl, -⟩ := hw hf'
    exact absurd hp' hp
  case postEnd hf' _ _ => exact .inl (by simp [returns])
  case postSkip hf' _ _ _ | postASync hf' _ _ _ _ | postAccept hf' _ _ _ | postFull hf' _ _ _ _ |
      postRetry hf' _ _ _ _ _ =>
    obtain ⟨rfl, rfl⟩ := hw hf'
    exact .inr ⟨by simp [returns], _, Function.update_self .., by simp, rfl⟩
  case postSignal hf' _ hw' | postRetrySignal hf' _ hw' =>
    obtain ⟨b, rfl, -⟩ := hw'.eq
    obtain ⟨rfl, rfl⟩ := hw hf'
    exact .inr ⟨rfl, _, Function.update_self .., by simp, rfl⟩
  case halt | haltPush => exact .inr ⟨by simp, f, by simpa using hf, hp, rfl⟩
  all_goals simp_all [State.userOnTop]

/-! ### Fan-outs do not mix -/

/-- The pushes of the fan-outs stand in blocks, and the last block is the one of the fan-out in progress. -/
structure FanOutInv (s : State abi) : Prop where
  blocks : Blocks (fanOuts s.log)
  past : ∀ t n, (t, n) ∈ fanOuts s.log → n ≤ returns t s.log
  holder : ∀ t, (t, returns t s.log) ∈ fanOuts s.log →
    ∃ f rest, s.frames t = .post f :: rest ∧ f.pc ≠ .lock ∧ s.isSync f = false
  last : ∀ t, (t, returns t s.log) ∈ fanOuts s.log → (fanOuts s.log).getLast? = some (t, returns t s.log)

/-- A step that pushes nothing. -/
theorem FanOutInv.still (hF : FanOutInv s) (h : Trans s t a s') (hp : pushes s'.log = pushes s.log) :
    FanOutInv s' := by
  have hids : fanOuts s'.log = fanOuts s.log := by rw [fanOuts, hp, fanOuts]
  -- a fan-out that is named by the present number of returns was so before
  have hsame : ∀ {u}, (u, returns u s'.log) ∈ fanOuts s.log → returns u s'.log = returns u s.log :=
    fun hm => Nat.le_antisymm (hF.past _ _ hm) h.returns_le
  refine ⟨by rw [hids]; exact hF.blocks, fun u n hm => ?past, fun u hm => ?holder, fun u hm => ?last⟩ <;>
    rw [hids] at hm
  case past => exact (hF.past u n hm).trans h.returns_le
  case holder =>
    have hu := hsame hm
    obtain ⟨f, rest, hf, hpc, hs⟩ := hF.holder u (hu ▸ hm)
    by_cases hut : u = t
    · subst hut
      rcases h.fanOut_next hf hpc hs with hr | ⟨-, f', hf', hpc', ho⟩
      · omega
      · exact ⟨f', rest, hf', hpc', by rw [State.isSync, ho, h.isSyncMode_eq]; exact hs⟩
    · exact ⟨f, rest, by rw [h.frames_ne hut, hf], hpc, by rw [State.isSync, h.isSyncMode_eq]; exact hs⟩
  case last =>
    have hu := hsame hm
    rw [hids, hu]
    exact hF.last u (hu ▸ hm)

/-- A step that pushes. -/
theorem FanOutInv.pushed {f' : PostFrame abi} (hF : FanOutInv s) (hL : LockInv s) (hH : HolderInv s)
    (h : Trans s t a s') (hf : s.frames t = .post f :: rest) (hp : f.pc = .push i)
    (hf' : s'.frames t = .post f' :: rest) (hp' : f'.pc ≠ .lock) (ho : f'.pOptions = f.pOptions)
    (hl : s'.log = s.log ++ [.accept (s.sid i) t f.isReplay (s.desc t f)]) : FanOutInv s' := by
  have hids : fanOuts s'.log = fanOuts s.log ++ [(t, returns t s.log)] := by
    simp [fanOuts, hl, pushes_concat, Obs.push]
  have hret : ∀ u, returns u s'.log = returns u s.log := fun u => by simp [hl, returns]
  have hasync : s'.isSync f' = false := by
    rw [State.isSync, ho, h.isSyncMode_eq]
    exact (hH.post t f rest i hf (by rw [hp]; rfl)).async
  -- the fan-out in progress is that of the holder of the context mutex
  have hholder : ∀ {u}, (u, returns u s.log) ∈ fanOuts s.log → u = t := fun hm => by
    obtain ⟨g, r, hg, hpg, -⟩ := hF.holder _ hm
    exact RecMutex.held_unique (hL.post_holder hg hpg) (hL.post_holder hf (by simp [hp]))
  have hself : ∀ {u}, (u, returns u s'.log) ∈ fanOuts s'.log → u = t := fun {u} hm => by
    rw [hids, hret, List.mem_append, List.mem_singleton] at hm
    rcases hm with hm | hm
    · exact hholder hm
    · exact congrArg Prod.fst hm
  refine ⟨?blocks, fun u n hm => ?past, fun u hm => ?holder, fun u hm => ?last⟩
  case blocks =>
    rw [hids]
    refine hF.blocks.snoc ?_
    by_cases hm : (t, returns t s.log) ∈ fanOuts s.log
    · exact .inr (hF.last t hm)
    · exact .inl hm
  case past =>
    rw [hids, List.mem_append, List.mem_singleton] at hm
    rw [hret]
    rcases hm with hm | hm
    · exact hF.past u n hm
    · obtain ⟨rfl, rfl⟩ := Prod.mk.inj hm
      exact le_rfl
  case holder =>
    obtain rfl := hself hm
    exact ⟨f', rest, hf', hp', hasync⟩
  case last =>
    obtain rfl := hself hm
    rw [hids, hret, List.getLast?_concat]

theorem fanOutInv_reach (h : Reach ok maxSuberNum clients s) : FanOutInv s := by
  refine h.induction ⟨.nil, ?_, ?_, ?_⟩ fun s s' t a hr hF _ _ h => ?_
  · exact fun t n hm => by simp [fanOuts, State.init, pushes, pushesAfter] at hm
  · exact fun t hm => by simp [fanOuts, State.init, pushes, pushesAfter] at hm
  · exact fun t hm => by simp [fanOuts, State.init, pushes, pushesAfter] at hm
  · rcases h.pushes_next with hp | ⟨f, f', rest, i, hf, hp, hf', hp', ho, hl⟩
    · exact hF.still h hp
    · exact hF.pushed (lockInv_reach hr) (holderInv_reach hr) h hf hp hf' hp' ho hl

/-! ### The law -/

/-- What a subscription was given is a prefix of what was accepted for it, also after it was removed. -/
theorem delivered_isPrefix (hr : Reach (fun s x => noSelfUnsub s x = true) maxSuberNum clients s) (g : ℕ) :
    delivered g s.log <+: accepted g s.log := by
  have hF := flowInv_reach hr
  by_cases hg : ∃ i, s.sid i = g
  · obtain ⟨i, rfl⟩ := hg
    exact (hF.channel i).isPrefix
  · have hold := hF.old g fun i hi => hg ⟨i, hi⟩
    simp only [ledger] at hold
    rw [hold]

/-- The deliveries of a subscription are those of its first pushes. -/
theorem deliversOf_map (hr : Reach (fun s x => noSelfUnsub s x = true) maxSuberNum clients s) (g : ℕ) :
    (deliversOf g s.log).map Push.pEvtDesc = delivered g s.log := by
  rw [deliversOf, List.map_take, acceptsOf_map]
  exact (List.prefix_iff_eq_take.mp (delivered_isPrefix hr g)).symm

/-- **All subscriptions see the events in one order.**  Of two fan-outs, one comes first at every subscription: nowhere
is its event accepted after the event of the other, and nowhere is it delivered after it.  The deliveries of a
subscription are, event by event, those of its first acceptances. -/
theorem fanOut_order (hr : Reach (fun s x => noSelfUnsub s x = true) maxSuberNum clients s) :
    (∀ g, (acceptsOf g s.log).map Push.pEvtDesc = accepted g s.log ∧
      (deliversOf g s.log).map Push.pEvtDesc = delivered g s.log ∧ deliversOf g s.log <+: acceptsOf g s.log) ∧
    ∀ f₁ f₂ : FanOut, f₁ ≠ f₂ →
      (∀ g, InOrder ((acceptsOf g s.log).map Push.fanOut) f₁ f₂ ∧
        InOrder ((deliversOf g s.log).map Push.fanOut) f₁ f₂) ∨
      ∀ g, InOrder ((acceptsOf g s.log).map Push.fanOut) f₂ f₁ ∧
        InOrder ((deliversOf g s.log).map Push.fanOut) f₂ f₁ := by
  refine ⟨fun g => ⟨acceptsOf_map g s.log, deliversOf_map hr g, List.take_prefix _ _⟩, fun f₁ f₂ hne => ?_⟩
  have hall : ∀ {x y : FanOut}, InOrder (fanOuts s.log) x y →
      ∀ g, InOrder ((acceptsOf g s.log).map Push.fanOut) x y ∧ InOrder ((deliversOf g s.log).map Push.fanOut) x y :=
    fun h g => ⟨h.sublist (acceptsOf_sublist g s.log), h.sublist (deliversOf_sublist g s.log)⟩
  exact ((fanOutInv_reach hr).blocks.inOrder_or hne).imp hall hall

/-- Two publishers, two subscriptions, and an event of each publisher at each subscription. -/
theorem fanOut_order_two :
    ∃ s : State lp64, fanOuts s.log = [(0, 2), (0, 2), (1, 0), (1, 0)] ∧
      (acceptsOf 1 s.log).map Push.fanOut = [(0, 2), (1, 0)] ∧
      (acceptsOf 2 s.log).map Push.fanOut = [(0, 2), (1, 0)] ∧
      ((∀ g, InOrder ((acceptsOf g s.log).map Push.fanOut) (0, 2) (1, 0) ∧
          InOrder ((deliversOf g s.log).map Push.fanOut) (0, 2) (1, 0)) ∨
        ∀ g, InOrder ((acceptsOf g s.log).map Push.fanOut) (1, 0) (0, 2) ∧
          InOrder ((deliversOf g s.log).map Push.fanOut) (1, 0) (0, 2)) := by
  obtain ⟨s, hr, hs⟩ := reach_of_run (fun s x => noSelfUnsub s x = true) (2 : ULong lp64) 2
    [(0, .call (.subEVT ⟨1, 1, some [7]⟩)), (0, .go), (0, .call (.subEVT ⟨2, 2, some [7]⟩)), (0, .go),
      (0, .call (.postEVT (.ofID lp64 7) none)), (0, .go), (0, .go), (0, .go), (0, .signal none),
      (0, .go), (0, .go), (0, .signal none), (0, .go),
      (2, .go), (2, .go), (3, .go), (3, .go), (3, .go),
      (1, .call (.postEVT (.ofID lp64 7) none)), (1, .go), (1, .go), (1, .go), (1, .signal none),
      (1, .go), (1, .go), (1, .signal none), (1, .go)]
    (fun s => fanOuts s.log == [(0, 2), (0, 2), (1, 0), (1, 0)] &&
      (acceptsOf 1 s.log).map Push.fanOut == [(0, 2), (1, 0)] &&
      (acceptsOf 2 s.log).map Push.fanOut == [(0, 2), (1, 0)]) (by decide +kernel)
  simp only [Bool.and_eq_true, beq_iff_eq] at hs
  obtain ⟨⟨hall, h1⟩, h2⟩ := hs
  exact ⟨s, hall, h1, h2, (fanOut_order hr).2 (0, 2) (1, 0) (by simp)⟩

end PlatIF.Ioc
