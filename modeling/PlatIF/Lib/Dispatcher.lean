import Mathlib.Data.List.Basic
import Mathlib.Data.List.Infix
import PlatIF.Lib.Simulation

/-!
# A dispatcher

One queue of events `α`, served by one server.  What is to be done for an event depends on a table `κ`: `due T d` is the
list of calls `β` that it makes.  The server takes the oldest event, looks at the table, makes the calls one after the
other, and starts again.  The table may be replaced whenever the server does not work with it.

* `Dispatcher.Step` — what the dispatcher does, one rule for each operation;
* `Dispatcher.planned` — the calls that a list of operations asks for;
* `Dispatcher.Exec.served` — they are what is called.
-/

namespace PlatIF

namespace Dispatcher

/-- Where the server is. -/
inductive Place (α β : Type*)
  | idle
  | taken (d : α)
  /-- With the calls still to be made. -/
  | calling (todo : List β)

/-- What an observer sees of a dispatcher. -/
inductive Op (κ α β : Type*)
  | retable (T : κ)
  | accept (d : α)
  | take (d : α)
  /-- The server looks at the table. -/
  | start
  | call (c : β)
  | finish
  deriving DecidableEq

end Dispatcher

/-- A dispatcher. -/
structure Dispatcher (κ α β : Type*) where
  table : κ
  queue : List α
  place : Dispatcher.Place α β

namespace Dispatcher

variable {κ α β : Type*}

/-- A dispatcher that has nothing to do. -/
def idle (T : κ) : Dispatcher κ α β := ⟨T, [], .idle⟩

/-- The operations. -/
inductive Step (due : κ → α → List β) (b : Dispatcher κ α β) : Op κ α β → Dispatcher κ α β → Prop
  | retable {T : κ} (hp : ∀ todo, b.place ≠ .calling todo) : Step due b (.retable T) { b with table := T }
  | accept {d : α} : Step due b (.accept d) { b with queue := b.queue ++ [d] }
  | take {d : α} {ds : List α} (hp : b.place = .idle) (hq : b.queue = d :: ds) :
      Step due b (.take d) { b with queue := ds, place := .taken d }
  | start {d : α} (hp : b.place = .taken d) : Step due b .start { b with place := .calling (due b.table d) }
  | call {c : β} {todo : List β} (hp : b.place = .calling (c :: todo)) :
      Step due b (.call c) { b with place := .calling todo }
  | finish (hp : b.place = .calling []) : Step due b .finish { b with place := .idle }

/-- The dispatcher comes from one state to another by the operations in the list. -/
abbrev Exec (due : κ → α → List β) : Dispatcher κ α β → List (Op κ α β) → Dispatcher κ α β → Prop :=
  Simulation.Exec (Step due)

/-! ### What a list of operations says -/

/-- The events that came in. -/
def accepts (os : List (Op κ α β)) : List α :=
  os.filterMap fun
    | .accept d => some d
    | _ => none

/-- The events that the server took. -/
def takes (os : List (Op κ α β)) : List α :=
  os.filterMap fun
    | .take d => some d
    | _ => none

/-- The calls made. -/
def calls (os : List (Op κ α β)) : List β :=
  os.filterMap fun
    | .call c => some c
    | _ => none

/-- The table in force at the end. -/
def tableAt (T : κ) : List (Op κ α β) → κ
  | [] => T
  | .retable T' :: os => tableAt T' os
  | _ :: os => tableAt T os

/-- The tables that the server worked with, one for each event that it started. -/
def tables (T : κ) : List (Op κ α β) → List κ
  | [] => []
  | .retable T' :: os => tables T' os
  | .start :: os => T :: tables T os
  | _ :: os => tables T os

/-- The calls that are asked for: those of the first event by the first table, and so on. -/
def planned (due : κ → α → List β) (T : κ) (os : List (Op κ α β)) : List β :=
  (List.zipWith due (tables T os) (takes os)).flatten

variable {due : κ → α → List β} {b b' : Dispatcher κ α β} {o : Op κ α β} {os : List (Op κ α β)} {T : κ}

theorem accepts_snoc : accepts (os ++ [o]) = accepts os ++ accepts [o] := List.filterMap_append

theorem takes_snoc : takes (os ++ [o]) = takes os ++ takes [o] := List.filterMap_append

theorem calls_snoc : calls (os ++ [o]) = calls os ++ calls [o] := List.filterMap_append

theorem tableAt_snoc : tableAt T (os ++ [o]) = tableAt (tableAt T os) [o] := by
  induction os generalizing T with
  | nil => rfl
  | cons x os ih => cases x <;> exact ih

theorem tables_snoc : tables T (os ++ [o]) = tables T os ++ tables (tableAt T os) [o] := by
  induction os generalizing T with
  | nil => rfl
  | cons x os ih =>
    cases x with
    | start => exact congrArg (T :: ·) ih
    | retable | accept | take | call | finish => exact ih

/-- An event that is not started yet asks for nothing. -/
theorem zipWith_flatten_snoc {ts : List κ} {ds : List α} (h : ts.length ≤ ds.length) (d : α) :
    (List.zipWith due ts (ds ++ [d])).flatten = (List.zipWith due ts ds).flatten := by
  induction ts generalizing ds with
  | nil => rfl
  | cons t ts ih =>
    cases ds with
    | nil => simp at h
    | cons x ds =>
      simp only [List.cons_append, List.zipWith_cons_cons, List.flatten_cons]
      rw [ih (Nat.le_of_succ_le_succ h)]

/-- The start of an event asks for what is due. -/
theorem zipWith_flatten_start {ts : List κ} {ds : List α} (h : ts.length = ds.length) (t : κ) (d : α) :
    (List.zipWith due (ts ++ [t]) (ds ++ [d])).flatten = (List.zipWith due ts ds).flatten ++ due t d := by
  rw [List.zipWith_append h, List.flatten_append]
  simp

/-! ### The law -/

/-- Where the server is, as the operations tell. -/
def Place.Fits (due : κ → α → List β) (T : κ) (os : List (Op κ α β)) : Place α β → Prop
  | .idle => (tables T os).length = (takes os).length ∧ calls os = planned due T os
  | .taken d => ∃ ds, takes os = ds ++ [d] ∧ (tables T os).length = ds.length ∧ calls os = planned due T os
  | .calling todo => (tables T os).length = (takes os).length ∧ calls os ++ todo = planned due T os

theorem Place.Fits.le {p : Place α β} (h : p.Fits due T os) : (tables T os).length ≤ (takes os).length := by
  cases p with
  | idle | calling => exact h.1.le
  | taken d =>
    obtain ⟨ds, hds, hlen, -⟩ := h
    rw [hds, List.length_append]
    omega

/-- An operation that says nothing of the server. -/
theorem Place.Fits.congr {p : Place α β} (h : p.Fits due T os) (h1 : tables (tableAt T os) [o] = [])
    (h2 : takes [o] = []) (h3 : calls [o] = []) : p.Fits due T (os ++ [o]) := by
  cases p <;>
    simpa only [Place.Fits, planned, tables_snoc, takes_snoc, calls_snoc, h1, h2, h3, List.append_nil] using h

/-- What the operations say of a dispatcher that started with nothing to do. -/
structure Tells (due : κ → α → List β) (T : κ) (os : List (Op κ α β)) (b : Dispatcher κ α β) : Prop where
  table : b.table = tableAt T os
  queue : accepts os = takes os ++ b.queue
  place : b.place.Fits due T os

theorem Tells.step (h : Tells due T os b) (hs : Step due b o b') : Tells due T (os ++ [o]) b' := by
  obtain ⟨ht, hq, hp⟩ := h
  have hle := hp.le
  cases hs with
  | retable =>
    refine ⟨?_, ?_, hp.congr rfl rfl rfl⟩
    · rw [tableAt_snoc]
      rfl
    · rw [accepts_snoc, takes_snoc]
      simpa [accepts, takes] using hq
  | @accept d =>
    refine ⟨?_, ?_, hp.congr rfl rfl rfl⟩
    · rw [tableAt_snoc]
      exact ht
    · rw [accepts_snoc, takes_snoc, hq]
      simp [accepts, takes]
  | @take d ds hidle hqueue =>
    rw [hidle] at hp
    obtain ⟨hlen, hcalls⟩ := hp
    refine ⟨?_, ?_, takes os, by rw [takes_snoc]; rfl, ?_, ?_⟩
    · rw [tableAt_snoc]
      exact ht
    · rw [accepts_snoc, takes_snoc, hq, hqueue]
      simp [accepts, takes]
    · rw [tables_snoc]
      simpa [tables] using hlen
    · rw [calls_snoc, planned, tables_snoc, takes_snoc]
      simp only [tables, takes, calls, List.filterMap_cons, List.filterMap_nil, List.append_nil]
      exact hcalls.trans (zipWith_flatten_snoc hle d).symm
  | @start d htaken =>
    rw [htaken] at hp
    obtain ⟨ds, hds, hlen, hcalls⟩ := hp
    have htabs : tables T (os ++ [.start]) = tables T os ++ [b.table] := by
      rw [tables_snoc, ht]
      rfl
    have htakes : takes (os ++ [.start]) = ds ++ [d] := by
      rw [takes_snoc, hds]
      simp [takes]
    refine ⟨?_, ?_, ?_, ?_⟩
    · rw [tableAt_snoc]
      exact ht
    · rw [accepts_snoc, htakes, hq, hds]
      simp [accepts]
    · rw [htabs, htakes, List.length_append, List.length_append, hlen]
      rfl
    · -- up to now the plan was that of the events before
      have hplan : planned due T os = (List.zipWith due (tables T os) ds).flatten := by
        rw [planned, hds]
        exact zipWith_flatten_snoc hlen.le d
      rw [planned, htabs, htakes, zipWith_flatten_start hlen, ← hplan, ← hcalls, calls_snoc]
      simp [calls]
  | @call c todo hcalling =>
    rw [hcalling] at hp
    obtain ⟨hlen, hcalls⟩ := hp
    refine ⟨?_, ?_, ?_, ?_⟩
    · rw [tableAt_snoc]
      exact ht
    · rw [accepts_snoc, takes_snoc]
      simpa [accepts, takes] using hq
    · rw [tables_snoc, takes_snoc]
      simpa [tables, takes] using hlen
    · rw [calls_snoc, planned, tables_snoc, takes_snoc]
      simpa [tables, takes, calls, planned] using hcalls
  | finish hcalling =>
    rw [hcalling] at hp
    obtain ⟨hlen, hcalls⟩ := hp
    refine ⟨?_, ?_, ?_, ?_⟩
    · rw [tableAt_snoc]
      exact ht
    · rw [accepts_snoc, takes_snoc]
      simpa [accepts, takes] using hq
    · rw [tables_snoc, takes_snoc]
      simpa [tables, takes] using hlen
    · rw [calls_snoc, planned, tables_snoc, takes_snoc]
      simpa [tables, takes, calls, planned] using hcalls

theorem Exec.tells (h : Exec due (idle T) os b) : Tells due T os b := by
  induction h with
  | nil => exact ⟨rfl, rfl, rfl, rfl⟩
  | snoc _ hs ih => exact ih.step hs

/-- The server makes the calls that come first. -/
theorem Exec.call_all {cs todo : List β} (h : b.place = .calling (cs ++ todo)) :
    Exec due b (cs.map .call) { b with place := .calling todo } := by
  induction cs generalizing b with
  | nil =>
    have hsame : { b with place := .calling todo } = b := by rw [← show b.place = .calling todo from h]
    rw [hsame]
    exact .nil
  | cons c cs ih =>
    have hfirst : Step due b (.call c) { b with place := .calling (cs ++ todo) } := .call h
    exact (Simulation.Exec.single hfirst).append (ih rfl)

/-- The server goes on making calls until it has finished. -/
theorem Exec.keeps_calling {todo : List β} (h : Exec due b os b') (hp : b.place = .calling todo)
    (hno : .finish ∉ os) : ∃ rest, b'.place = .calling rest := by
  induction h with
  | nil => exact ⟨todo, hp⟩
  | snoc h hs ih =>
    rw [List.mem_append, not_or] at hno
    obtain ⟨rest, hrest⟩ := ih hno.1
    cases hs with
    | retable hfree => exact absurd hrest (hfree rest)
    | accept => exact ⟨rest, hrest⟩
    | take hidle => simp [hidle] at hrest
    | start htaken => simp [htaken] at hrest
    | call => exact ⟨_, rfl⟩
    | finish => simp at hno

/-- What a list of operations of a dispatcher looks like. -/
structure Served (due : κ → α → List β) (T : κ) (os : List (Op κ α β)) : Prop where
  /-- Events are taken in the order in which they came in. -/
  fifo : takes os <+: accepts os
  /-- Each is started after it was taken, once, and before the next one is taken. -/
  turns : ∀ pre d post, os = pre ++ .take d :: post → (tables T pre).length = (takes pre).length
  /-- The calls made are the first of those that are asked for, and there are no others. -/
  inPlan : calls os <+: planned due T os
  /-- When an event is finished, all that were asked for have been made. -/
  complete : ∀ pre post, os = pre ++ .finish :: post → calls pre = planned due T pre
  /-- From the start of an event to its finish the table is not replaced. -/
  atomic : ∀ pre mid T' post, os = pre ++ .start :: (mid ++ .retable T' :: post) → .finish ∈ mid

/-- **What is served is what is asked for.** -/
theorem Exec.served (h : Exec due (idle T) os b) : Served due T os := by
  have htells := h.tells
  constructor
  case fifo => exact ⟨_, htells.queue.symm⟩
  case turns =>
    rintro pre d post rfl
    obtain ⟨b₁, b₂, h₁, hs, -⟩ := h.split_cons
    cases hs with
    | take hidle =>
      have hfits := (Exec.tells h₁).place
      rw [hidle] at hfits
      exact hfits.1
  case inPlan =>
    have hfits := htells.place
    cases hp : b.place with
    | idle =>
      rw [hp] at hfits
      exact hfits.2 ▸ List.prefix_rfl
    | taken d =>
      rw [hp] at hfits
      obtain ⟨ds, -, -, hcalls⟩ := hfits
      exact hcalls ▸ List.prefix_rfl
    | calling todo =>
      rw [hp] at hfits
      exact ⟨todo, hfits.2⟩
  case complete =>
    rintro pre post rfl
    obtain ⟨b₁, b₂, h₁, hs, -⟩ := h.split_cons
    cases hs with
    | finish hcalling =>
      have hfits := (Exec.tells h₁).place
      rw [hcalling] at hfits
      simpa using hfits.2
  case atomic =>
    rintro pre mid T' post rfl
    obtain ⟨b₁, b₂, -, hs, h₂⟩ := h.split_cons
    cases hs with
    | start =>
      by_contra hno
      obtain ⟨b₃, b₄, h₃, hs', -⟩ := h₂.split_cons
      obtain ⟨rest, hrest⟩ := Exec.keeps_calling h₃ rfl hno
      cases hs' with
      | retable hfree => exact hfree rest hrest

end Dispatcher

end PlatIF
