import TwoPass.Statement

/-!
# Passes over a program

A pass goes through the statements with a state, which starts with a location counter. It stops
after the statement that ends the program, or at the first statement it cannot process. What it did
to each statement it processed stays known in either case.
-/

namespace TwoPass

/-- A pass so far: an event for each statement it processed, the state it reached, and what stopped
it, if something did. -/
structure Pass (σ α ε : Type) where
  events : List α
  state : σ
  stop : Option ε

/-- Goes through statements with `step` from a state. -/
def Pass.run {σ α ε : Type} (step : σ → SourceStatement → Except ε (α × σ)) (state : σ) :
    List SourceStatement → Pass σ α ε
  | [] => ⟨[], state, none⟩
  | s :: rest =>
    match step state s with
    | .error e => ⟨[], state, some e⟩
    | .ok (event, next) =>
      if s.op = .fin then ⟨[event], next, none⟩
      else
        let after := Pass.run step next rest
        ⟨event :: after.events, after.state, after.stop⟩

/-- Refuses a statement beyond the last address. An end without a label takes no address, so it
may stand just after the last word. -/
def checkCounter (address : Nat) (s : SourceStatement) : Except Diagnostic Unit :=
  if address ≤ wordMax ∨ (s.op = .fin ∧ s.label = none) then .ok ()
  else .error ⟨.counterOverflow address, s.origin⟩

end TwoPass
