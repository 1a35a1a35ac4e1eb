import Mathlib.Data.Set.Insert
import Mathlib.Logic.Function.Basic
import PlatIF.Lib.Channel
import PlatIF.Lib.Simulation

/-!
# A publish/subscribe broker

What a broker promises its subscribers, for subscriptions `κ` and events `α`.  A subscription says once which events it
wants.  While it is live, events that it wants are put into its mailbox, of bounded length, and handed to it in order; a
subscriber may also put events aside and take them back in order.  It is cancelled with nothing left for it.

* `Broker.Step` — what the broker does, one rule for each operation;
* `Broker.Exec.mailbox_eq`, `Broker.Exec.deferred_eq` — mailboxes and deferred events are what the operations say;
* `Broker.Exec.life` — nothing is done for a subscription before it is made or after it is cancelled.
-/

namespace PlatIF

/-- What a broker keeps for its subscriptions. -/
structure Broker (κ α : Type*) where
  /-- The subscriptions made so far. -/
  known : Set κ
  live : Set κ
  wants : κ → Set α
  mailbox : κ → List α
  deferred : κ → List α

namespace Broker

variable {κ α : Type*}

/-- What an observer sees of a broker. -/
inductive Op (κ α : Type*)
  | subscribe (g : κ)
  | cancel (g : κ)
  /-- An event is put into the mailbox. -/
  | accept (g : κ) (d : α)
  /-- The oldest event of the mailbox is handed over. -/
  | deliver (g : κ) (d : α)
  /-- An event is handed over at once. -/
  | notify (g : κ) (d : α)
  /-- An event is put aside. -/
  | defer (g : κ) (d : α)
  /-- The oldest event put aside is taken back. -/
  | retire (g : κ)
  deriving DecidableEq

/-- The subscription an operation is for. -/
def Op.about : Op κ α → κ
  | .subscribe g | .cancel g | .accept g _ | .deliver g _ | .notify g _ | .defer g _ | .retire g => g

/-- A broker without subscriptions. -/
def empty : Broker κ α := ⟨∅, ∅, fun _ => ∅, fun _ => [], fun _ => []⟩

section

variable [DecidableEq κ]

/-- The operations, with room for `room` events in a mailbox and for `aside` deferred ones. -/
inductive Step (room aside : ℕ) (b : Broker κ α) : Op κ α → Broker κ α → Prop
  | subscribe {g : κ} (hg : g ∉ b.known) (want : Set α) :
      Step room aside b (.subscribe g)
        { b with known := insert g b.known, live := insert g b.live, wants := Function.update b.wants g want }
  /-- A subscription may be refused, and is then never live. -/
  | refuse {g : κ} (hg : g ∉ b.known) : Step room aside b (.subscribe g) { b with known := insert g b.known }
  | cancel {g : κ} (hg : g ∈ b.live) (hm : b.mailbox g = []) (hd : b.deferred g = []) :
      Step room aside b (.cancel g) { b with live := b.live \ {g} }
  | accept {g : κ} {d : α} (hg : g ∈ b.live) (hw : d ∈ b.wants g) (hr : (b.mailbox g).length < room) :
      Step room aside b (.accept g d) { b with mailbox := Function.update b.mailbox g (b.mailbox g ++ [d]) }
  | deliver {g : κ} {d : α} {ds : List α} (hg : g ∈ b.live) (hm : b.mailbox g = d :: ds) :
      Step room aside b (.deliver g d) { b with mailbox := Function.update b.mailbox g ds }
  | notify {g : κ} {d : α} (hg : g ∈ b.live) (hw : d ∈ b.wants g) : Step room aside b (.notify g d) b
  | defer {g : κ} {d : α} (hg : g ∈ b.live) (hr : (b.deferred g).length < aside) :
      Step room aside b (.defer g d) { b with deferred := Function.update b.deferred g (b.deferred g ++ [d]) }
  | retire {g : κ} {d : α} {ds : List α} (hg : g ∈ b.live) (hd : b.deferred g = d :: ds) :
      Step room aside b (.retire g) { b with deferred := Function.update b.deferred g ds }

/-- The broker comes from one state to another by the operations in the list. -/
abbrev Exec (room aside : ℕ) : Broker κ α → List (Op κ α) → Broker κ α → Prop := Simulation.Exec (Step room aside)

/-! ### What the operations say of one subscription -/

/-- The events accepted for `g`. -/
def accepts (g : κ) (os : List (Op κ α)) : List α :=
  os.filterMap fun
    | .accept g' d => if g' = g then some d else none
    | _ => none

/-- The events delivered to `g`. -/
def delivers (g : κ) (os : List (Op κ α)) : List α :=
  os.filterMap fun
    | .deliver g' d => if g' = g then some d else none
    | _ => none

/-- The events put aside for `g`. -/
def defers (g : κ) (os : List (Op κ α)) : List α :=
  os.filterMap fun
    | .defer g' d => if g' = g then some d else none
    | _ => none

/-- How many of them were taken back. -/
def retires (g : κ) (os : List (Op κ α)) : ℕ :=
  os.countP fun
    | .retire g' => g' = g
    | _ => false

variable {room aside : ℕ} {b b' : Broker κ α} {o : Op κ α} {os os' : List (Op κ α)} {g : κ} {d : α}

theorem accepts_snoc : accepts g (os ++ [o]) = accepts g os ++ accepts g [o] := List.filterMap_append

theorem delivers_snoc : delivers g (os ++ [o]) = delivers g os ++ delivers g [o] := List.filterMap_append

theorem defers_snoc : defers g (os ++ [o]) = defers g os ++ defers g [o] := List.filterMap_append

theorem retires_snoc : retires g (os ++ [o]) = retires g os + retires g [o] := List.countP_append

/-- What was accepted is what was delivered, then what is in the mailbox. -/
theorem Exec.mailbox_eq (h : Exec room aside empty os b) (g : κ) :
    Conserved (accepts g os) (delivers g os) [] (b.mailbox g) := by
  induction h with
  | nil => exact .empty
  | snoc _ hs ih =>
    rw [accepts_snoc, delivers_snoc]
    cases hs with
    | @accept g' d _ _ _ =>
      by_cases hg : g' = g
      · subst hg
        simpa [accepts, delivers] using ih.accept d
      · simpa [accepts, delivers, hg, Ne.symm hg] using ih
    | @deliver g' d ds _ hm =>
      by_cases hg : g' = g
      · subst hg
        rw [hm] at ih
        simpa [accepts, delivers] using ih.take.deliver
      · simpa [accepts, delivers, hg, Ne.symm hg] using ih
    | subscribe | refuse | cancel | notify | defer | retire => simpa [accepts, delivers] using ih

/-- What is deferred is what was put aside and not taken back. -/
theorem Exec.deferred_eq (h : Exec room aside empty os b) (g : κ) :
    b.deferred g = (defers g os).drop (retires g os) ∧ retires g os ≤ (defers g os).length := by
  induction h with
  | nil => exact ⟨rfl, le_rfl⟩
  | @snoc os _ _ _ _ hs ih =>
    obtain ⟨hd, hle⟩ := ih
    rw [defers_snoc, retires_snoc]
    cases hs with
    | @defer g' d _ _ =>
      by_cases hg : g' = g
      · subst hg
        have hone : defers g' [Op.defer g' d] = [d] := by simp [defers]
        have hnone : retires g' [Op.defer g' d] = 0 := by simp [retires]
        rw [hone, hnone, Nat.add_zero, List.drop_append_of_le_length hle, ← hd, List.length_append]
        exact ⟨Function.update_self .., by omega⟩
      · simpa [defers, retires, hg, Ne.symm hg] using ⟨hd, hle⟩
    | @retire g' d ds _ hc =>
      by_cases hg : g' = g
      · subst hg
        have hnone : defers g' [Op.retire (α := α) g'] = [] := by simp [defers]
        have hone : retires g' [Op.retire (α := α) g'] = 1 := by simp [retires]
        have htail : ds = (defers g' os).drop (retires g' os + 1) := by
          rw [← List.tail_drop, ← hd, hc, List.tail_cons]
        have hlen := congrArg List.length (hd.symm.trans hc)
        rw [List.length_drop, List.length_cons] at hlen
        rw [hone, hnone, List.append_nil]
        exact ⟨(Function.update_self ..).trans htail, by omega⟩
      · simpa [defers, retires, hg, Ne.symm hg] using ⟨hd, hle⟩
    | subscribe | refuse | cancel | notify | accept | deliver => simpa [defers, retires] using ⟨hd, hle⟩

/-! ### The life of a subscription -/

/-- An operation is for a subscription that is live, or makes a new one. -/
theorem Step.about (h : Step room aside b o b') : o.about ∈ b.live ∨ o = .subscribe o.about ∧ o.about ∉ b.known := by
  cases h with
  | subscribe hg | refuse hg => exact .inr ⟨rfl, hg⟩
  | cancel hg | accept hg | deliver hg | notify hg | defer hg | retire hg => exact .inl hg

/-- Only a new subscription becomes known. -/
theorem Step.mem_known (h : Step room aside b o b') : g ∈ b'.known ↔ g ∈ b.known ∨ o = .subscribe g := by
  cases h with
  | subscribe | refuse =>
    rw [Set.mem_insert_iff, Op.subscribe.injEq, or_comm, eq_comm]
  | cancel | accept | deliver | notify | defer | retire => simp

/-- A known subscription does not come to life again. -/
theorem Step.live (h : Step room aside b o b') (hg : g ∈ b.known) (hl : g ∈ b'.live) : g ∈ b.live := by
  cases h with
  | subscribe hk => exact hl.resolve_left fun he => hk (he ▸ hg)
  | cancel => exact hl.1
  | refuse | accept | deliver | notify | defer | retire => exact hl

/-- Live subscriptions are known. -/
theorem Exec.live_subset (h : Exec room aside empty os b) : b.live ⊆ b.known :=
  h.invariant (P := fun b => b.live ⊆ b.known) (fun b o b' hb hs => by
    cases hs with
    | subscribe => exact Set.insert_subset_insert hb
    | refuse => exact hb.trans (Set.subset_insert ..)
    | cancel => exact fun g hg => hb hg.1
    | accept | deliver | notify | defer | retire => exact hb) subset_rfl

/-- A known subscription stays known. -/
theorem Exec.known_mono (h : Exec room aside b os b') (hg : g ∈ b.known) : g ∈ b'.known :=
  h.invariant (P := fun b => g ∈ b.known) (fun _ _ _ hb hs => hs.mem_known.mpr (.inl hb)) hg

/-- The known subscriptions are those that were made. -/
theorem Exec.mem_known (h : Exec room aside empty os b) : g ∈ b.known ↔ .subscribe g ∈ os := by
  induction h with
  | nil => simp [empty]
  | snoc _ hs ih => rw [hs.mem_known, ih, List.mem_append, List.mem_singleton, eq_comm]

/-- Nothing is done for a subscription that is known and not live. -/
theorem Exec.silent (h : Exec room aside b os b') (hk : g ∈ b.known) (hl : g ∉ b.live) :
    (∀ o, o ∈ os → o.about ≠ g) ∧ g ∉ b'.live := by
  induction h with
  | nil => exact ⟨by simp, hl⟩
  | snoc hx hs ih =>
    obtain ⟨hno, hl'⟩ := ih
    have hk' := Exec.known_mono hx hk
    refine ⟨fun o ho => ?_, fun h => hl' (hs.live hk' h)⟩
    rcases List.mem_append.mp ho with ho | ho
    · exact hno o ho
    · obtain rfl := List.mem_singleton.mp ho
      rintro rfl
      rcases hs.about with hlive | ⟨-, hnew⟩
      · exact hl' hlive
      · exact hnew hk'

/-- The operations for one subscription, in any list of operations of a broker. -/
structure Life (g : κ) (os : List (Op κ α)) : Prop where
  /-- Before all others it is made. -/
  first : ∀ pre o post, os = pre ++ o :: post → o.about = g → o = .subscribe g ∨ .subscribe g ∈ pre
  /-- It is made once. -/
  once : ∀ pre post, os = pre ++ .subscribe g :: post → .subscribe g ∉ pre ∧ .subscribe g ∉ post
  /-- After it is cancelled there are no others, and nothing was left for it. -/
  last : ∀ pre post, os = pre ++ .cancel g :: post → (∀ o, o ∈ post → o.about ≠ g) ∧
    accepts g pre = delivers g pre ∧ retires g pre = (defers g pre).length
  /-- What is handed over was accepted before, and comes in that order. -/
  order : ∀ pre d post, os = pre ++ .deliver g d :: post → delivers g pre ++ [d] <+: accepts g pre

/-- **The life of a subscription.** -/
theorem Exec.life (h : Exec room aside empty os b) (g : κ) : Life g os := by
  constructor
  case first =>
    rintro pre o post rfl rfl
    obtain ⟨b₁, b₂, h₁, hs, -⟩ := h.split_cons
    rcases hs.about with hl | ⟨ho, -⟩
    · exact .inr (Exec.mem_known h₁ |>.mp (Exec.live_subset h₁ hl))
    · exact .inl ho
  case once =>
    rintro pre post rfl
    obtain ⟨b₁, b₂, h₁, hs, h₂⟩ := h.split_cons
    have hnew : ∀ {b b' : Broker κ α}, Step room aside b (.subscribe g) b' → g ∉ b.known := fun hs => by
      cases hs with
      | subscribe hg | refuse hg => exact hg
    refine ⟨fun hmem => hnew hs (Exec.mem_known h₁ |>.mpr hmem), fun hmem => ?_⟩
    -- it is known from then on
    obtain ⟨l, l', rfl⟩ := List.append_of_mem hmem
    obtain ⟨b₃, b₄, h₃, hs', -⟩ := h₂.split_cons
    exact hnew hs' (Exec.known_mono h₃ (hs.mem_known.mpr (.inr rfl)))
  case last =>
    rintro pre post rfl
    obtain ⟨b₁, b₂, h₁, hs, h₂⟩ := h.split_cons
    cases hs with
    | cancel hg hm hd =>
      refine ⟨(Exec.silent h₂ (Exec.live_subset h₁ hg) fun h => h.2 rfl).1, ?_, ?_⟩
      · have hacc := Exec.mailbox_eq h₁ g
        rw [hm] at hacc
        exact hacc.all_delivered
      · obtain ⟨he, hle⟩ := Exec.deferred_eq h₁ g
        rw [hd, eq_comm, List.drop_eq_nil_iff] at he
        omega
  case order =>
    rintro pre d post rfl
    obtain ⟨b₁, b₂, h₁, hs, -⟩ := h.split_cons
    cases hs with
    | @deliver _ _ ds hg hm =>
      have hacc := Exec.mailbox_eq h₁ g
      rw [hm] at hacc
      exact hacc.take.deliver.isPrefix

end

end Broker

end PlatIF
