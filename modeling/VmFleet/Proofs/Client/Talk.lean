/-
This file takes conversations apart that are held on a link with a state. One that comes to a
value has come to one at each of its steps, and what is settled beforehand asks nothing.
-/

import VmFleet.Client.Session

namespace VmFleet.Client

variable {state α β : Type}

/-- To go on with a value or an error prints nothing and asks nothing. -/
theorem run_settle (outcome : Except FleetError α) (text : String) (now : state) :
    ((settle outcome : Talk (StateM state) α).run.run text).run now = ((outcome, text), now) := by
  cases outcome <;> rfl

/-- The conversation comes to the value, whatever it says and asks on the way. -/
def Yields (talk : Talk (StateM state) α) (value : α) : Prop :=
  ∃ text now printed later, (talk.run.run text).run now = ((.ok value, printed), later)

/-- A conversation that goes on and comes to a value has gone on from one. -/
theorem Yields.of_bind {talk : Talk (StateM state) α} {next : α → Talk (StateM state) β} {value : β}
    (yields : Yields (talk >>= next) value) :
    ∃ middle, Yields talk middle ∧ Yields (next middle) value := by
  obtain ⟨text, now, printed, later, ran⟩ := yields
  rw [ExceptT.run_bind, StateT.run_bind, StateT.run_bind] at ran
  rcases first : (talk.run.run text).run now with ⟨⟨error | middle, between⟩, meanwhile⟩
  · rw [first] at ran
    cases ran
  · rw [first] at ran
    exact ⟨middle, ⟨text, now, between, meanwhile, first⟩, between, meanwhile, printed, later, ran⟩

theorem Yields.eq_of_pure {left right : α}
    (yields : Yields (pure left : Talk (StateM state) α) right) : left = right := by
  obtain ⟨text, now, printed, later, ran⟩ := yields
  exact Except.ok.inj (congrArg (·.1.1) ran)

/-- A conversation that settles an outcome first goes on from a value. -/
theorem Yields.eq_ok {outcome : Except FleetError α} {value : α}
    (yields : Yields (settle outcome : Talk (StateM state) α) value) : outcome = .ok value := by
  obtain ⟨text, now, printed, later, ran⟩ := yields
  rw [run_settle] at ran
  exact congrArg (·.1.1) ran

end VmFleet.Client
