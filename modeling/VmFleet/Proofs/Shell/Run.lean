/-
This file proves what running a script comes to, whatever the script is. A run is built of a
few steps that change the state and of the ways to put parts together, so what the steps keep
and the ways carry over holds of every command. The commands count their steps down, and the
induction is on these. It is made once, for a relation between a run of fewer steps and one of
more, and used twice: all that is printed and copied stays, and a run that was not killed comes
out the same when it may take more steps.
-/

import VmFleet.Proofs.Runner.Output
import VmFleet.Shell.Run

namespace VmFleet.Shell

open VmFleet.Runner

namespace State

variable {before middle after state : State}

/-! ### What a run keeps -/

/-- The lines that were copied stand in the log, in their order. -/
structure IsCopied (state : State) : Prop where
  complete : state.copied ≤ (followSoFar state.printed).logged.length
  within : ((followSoFar state.printed).logged.take state.copied).Sublist state.logged

/-- A script is asked to end if somebody wanted it to, and it goes on for a limited time. -/
def IsPunctual (state : State) : Prop :=
  ∀ passed, state.asked = some passed → state.request = .onceReported ∧ passed < haltPatience

/-- How one state comes out of another: what was printed and what stands in the log stays, and
the time since the script was asked to end goes on. -/
structure Leads (before after : State) : Prop where
  printed : before.printed <+: after.printed
  logged : before.logged <+: after.logged
  asked : ∀ passed, before.asked = some passed →
    ∃ later, after.asked = some later ∧ passed ≤ later
  request : after.request = before.request
  impatient : after.impatient = before.impatient
  copied : before.IsCopied → after.IsCopied
  punctual : before.IsPunctual → after.IsPunctual

theorem leads_self (state : State) : state.Leads state :=
  ⟨List.prefix_refl _, List.prefix_refl _, fun passed asked => ⟨passed, asked, le_rfl⟩, rfl, rfl,
    id, id⟩

theorem Leads.trans (first : before.Leads middle) (second : middle.Leads after) :
    before.Leads after where
  printed := first.printed.trans second.printed
  logged := first.logged.trans second.logged
  asked := by
    intro passed asked
    obtain ⟨later, still, before⟩ := first.asked passed asked
    obtain ⟨last, now, after⟩ := second.asked later still
    exact ⟨last, now, before.trans after⟩
  request := second.request.trans first.request
  impatient := second.impatient.trans first.impatient
  copied := second.copied ∘ first.copied
  punctual := second.punctual ∘ first.punctual

/-- Two states have the same output, log and request. -/
structure Agrees (before after : State) : Prop where
  printed : after.printed = before.printed
  logged : after.logged = before.logged
  copied : after.copied = before.copied
  request : after.request = before.request
  impatient : after.impatient = before.impatient
  asked : after.asked = before.asked

theorem Agrees.leads (agrees : before.Agrees after) : before.Leads after where
  printed := agrees.printed ▸ List.prefix_refl _
  logged := agrees.logged ▸ List.prefix_refl _
  asked := fun passed asked => ⟨passed, agrees.asked.trans asked, le_rfl⟩
  request := agrees.request
  impatient := agrees.impatient
  copied := by
    rintro ⟨complete, within⟩
    refine ⟨?_, ?_⟩
    · rwa [agrees.printed, agrees.copied]
    · rwa [agrees.printed, agrees.copied, agrees.logged]
  punctual := by
    intro punctual passed asked
    rw [agrees.request]
    exact punctual passed (agrees.asked ▸ asked)

theorem agrees_self (state : State) : state.Agrees state :=
  ⟨rfl, rfl, rfl, rfl, rfl, rfl⟩

theorem Agrees.trans (first : before.Agrees middle) (second : middle.Agrees after) :
    before.Agrees after where
  printed := second.printed.trans first.printed
  logged := second.logged.trans first.logged
  copied := second.copied.trans first.copied
  request := second.request.trans first.request
  impatient := second.impatient.trans first.impatient
  asked := second.asked.trans first.asked

theorem agrees_assignAll (state : State) (settings : List (String × String)) :
    state.Agrees (state.assignAll settings) := by
  induction settings generalizing state with
  | nil => exact state.agrees_self
  | cons setting settings inductionHypothesis =>
    refine Agrees.trans ?_ (inductionHypothesis (state.assign setting.1 setting.2))
    exact ⟨rfl, rfl, rfl, rfl, rfl, rfl⟩

theorem agrees_redirected (state : State) (redirections : List Redirection) :
    state.Agrees (redirections.foldl redirected state) := by
  induction redirections generalizing state with
  | nil => exact state.agrees_self
  | cons redirection redirections inductionHypothesis =>
    refine Agrees.trans ?_ (inductionHypothesis (redirected state redirection))
    simp only [redirected]
    split <;> exact ⟨rfl, rfl, rfl, rfl, rfl, rfl⟩

/-- When more is printed, what was copied is still the beginning. -/
theorem leads_write (state : State) (sink : Sink) (octets : List UInt8) :
    state.Leads (state.write sink octets) := by
  cases sink with
  | printed =>
    refine { leads_self state with
      printed := List.prefix_append _ _, copied := fun ⟨complete, within⟩ => ?_ }
    have longer := followSoFar_prefix state.printed octets
    refine ⟨complete.trans longer.length_le, ?_⟩
    obtain ⟨more, split⟩ := longer
    show ((followSoFar (state.printed ++ octets)).logged.take state.copied).Sublist state.logged
    rwa [← split, List.take_append_of_le_length complete]
  | pipe => exact Agrees.leads ⟨rfl, rfl, rfl, rfl, rfl, rfl⟩
  | log =>
    exact { leads_self state with
      logged := List.prefix_append _ _
      copied := fun ⟨complete, within⟩ =>
        ⟨complete, within.trans (List.sublist_append_left _ _)⟩ }
  | nowhere => exact leads_self state

/-- A copy of all lines stands in the log, however many of them were copied before. -/
theorem IsCopied.sublist_copy (copied : state.IsCopied) {lines : Followed}
    (longer : (followSoFar state.printed).logged <+: lines.logged) :
    lines.logged.Sublist (state.copy lines).logged := by
  obtain ⟨more, split⟩ := longer
  have within := copied.within
  rw [← List.take_append_of_le_length copied.complete, split] at within
  rw [← List.take_append_drop state.copied lines.logged]
  exact within.append (List.Sublist.refl _)

theorem leads_catchUp (state : State) : state.Leads state.catchUp := by
  refine { leads_self state with
    logged := List.prefix_append _ _, copied := fun copied => ⟨?_, ?_⟩ }
  · exact (Nat.max_eq_right copied.complete).le
  · exact (List.take_sublist _ _).trans (copied.sublist_copy (List.prefix_refl _))

/-- A script is asked at once, and only if it was not before. -/
theorem leads_ask (state : State) : state.Leads state.ask := by
  unfold ask
  split
  · rename_i due
    simp only [isDue, Bool.and_eq_true, beq_iff_eq, Option.isNone_iff_eq_none] at due
    obtain ⟨⟨wanted, free⟩, -⟩ := due
    refine { leads_self state with
      asked := fun passed asked => ?_
      copied := fun ⟨complete, within⟩ => ⟨complete, within⟩
      punctual := fun _ => ?_ }
    · cases free.symm.trans asked
    · rintro _ ⟨⟩
      exact ⟨wanted, by decide⟩
  · exact leads_self state

/-- A script that was asked to end is killed before its time is over. -/
theorem leads_of_later? {duration : Nat} {later : State}
    (onward : state.later? duration = some later) : state.Leads later := by
  unfold later? at onward
  cases asked : state.asked with
  | none =>
    rw [asked] at onward
    obtain rfl := Option.some.inj onward
    exact leads_self state
  | some passed =>
    rw [asked] at onward
    simp only [Option.ite_none_left_eq_some, Bool.or_eq_true, decide_eq_true_eq, not_or,
      Nat.not_le, Option.some.injEq] at onward
    obtain ⟨⟨-, time⟩, rfl⟩ := onward
    refine { leads_self state with
      asked := fun earlier before => ⟨_, rfl, ?_⟩
      copied := fun ⟨complete, within⟩ => ⟨complete, within⟩
      punctual := fun punctual => ?_ }
    · obtain rfl := Option.some.inj (asked.symm.trans before)
      exact Nat.le_add_right _ _
    · rintro _ ⟨⟩
      exact ⟨(punctual passed asked).1, time⟩

end State

/-! ### Parts of a run -/

variable {α β : Type} {part more : Run α} {rest others : α → Run β}

theorem run_bind (part : Run α) (rest : α → Run β) (state : State) :
    (part >>= rest).run state =
      match part.run state with
      | (.ok value, after) => (rest value).run after
      | (.error jump, after) => (.error jump, after) := by
  show (ExceptT.bindCont rest (part.run state).1 : StateM State _) (part.run state).2 = _
  rcases part.run state with ⟨jump | value, after⟩ <;> rfl

theorem run_get (state : State) : (get : Run State).run state = (.ok state, state) :=
  rfl

theorem run_tryCatch (part : Run α) (handler : Jump → Run α) (state : State) :
    (tryCatch part handler).run state =
      match part.run state with
      | (.ok value, after) => (.ok value, after)
      | (.error jump, after) => (handler jump).run after := by
  rcases ended : part.run state with ⟨jump | value, after⟩
  all_goals
    simp only [tryCatch, tryCatchThe, MonadExceptOf.tryCatch, ExceptT.tryCatch, ExceptT.run,
      ExceptT.mk, bind, StateT.bind] at ended ⊢
    rw [ended]
  rfl

/-- Whatever state a part of a run starts from, it leads to the one in which it ends. -/
def Proceeds (part : Run α) : Prop :=
  ∀ state : State, state.Leads (part.run state).2

theorem proceeds_pure (value : α) : Proceeds (pure value : Run α) :=
  State.leads_self

theorem proceeds_throw (jump : Jump) : Proceeds (throw jump : Run α) :=
  State.leads_self

theorem proceeds_get : Proceeds (get : Run State) :=
  State.leads_self

theorem proceeds_modify {change : State → State}
    (leads : ∀ state : State, state.Leads (change state)) :
    Proceeds (modify change : Run Unit) :=
  leads

theorem proceeds_change {change : State → State}
    (agrees : ∀ state : State, state.Agrees (change state)) :
    Proceeds (modify change : Run Unit) :=
  fun state => (agrees state).leads

theorem Proceeds.bind (first : Proceeds part) (second : ∀ value, Proceeds (rest value)) :
    Proceeds (part >>= rest) := by
  intro state
  have leads := first state
  rw [run_bind]
  rcases ended : part.run state with ⟨jump | value, after⟩ <;> rw [ended] at leads
  · exact leads
  · exact leads.trans (second value after)

theorem Proceeds.tryCatch {handler : Jump → Run α} (first : Proceeds part)
    (second : ∀ jump, Proceeds (handler jump)) : Proceeds (tryCatch part handler) := by
  intro state
  have leads := first state
  rw [run_tryCatch]
  rcases ended : part.run state with ⟨jump | value, after⟩ <;> rw [ended] at leads
  · exact leads.trans (second jump after)
  · exact leads

/-! ### Commands that need no other command -/

theorem proceeds_print (octets : List UInt8) : Proceeds (print octets) :=
  proceeds_modify fun state => state.leads_write state.output octets

theorem proceeds_complain (words : String) : Proceeds (complain words) :=
  proceeds_modify fun state => state.leads_write state.complaints _

theorem proceeds_setTraps (arguments : List String) : Proceeds (setTraps arguments) := by
  unfold setTraps
  cases arguments with
  | nil => exact proceeds_pure ()
  | cons script signals => exact proceeds_change fun _ => ⟨rfl, rfl, rfl, rfl, rfl, rfl⟩

theorem proceeds_copyWaiting : Proceeds copyWaiting := by
  unfold copyWaiting
  refine proceeds_get.bind fun _ => (proceeds_print _).bind fun _ => proceeds_change fun _ => ?_
  exact ⟨rfl, rfl, rfl, rfl, rfl, rfl⟩

theorem proceeds_copyArgument (status : Nat) (argument : String) :
    Proceeds (copyArgument status argument) := by
  unfold copyArgument
  split
  · exact proceeds_copyWaiting.bind fun _ => proceeds_pure _
  · split
    · exact proceeds_pure _
    · exact (proceeds_complain _).bind fun _ => proceeds_pure _

theorem proceeds_copyInput (arguments : List String) : Proceeds (copyInput arguments) := by
  have each : ∀ (arguments : List String) (status : Nat),
      Proceeds (arguments.foldlM copyArgument status) := by
    intro arguments
    induction arguments with
    | nil => exact proceeds_pure
    | cons argument arguments inductionHypothesis =>
      intro status
      rw [List.foldlM_cons]
      exact (proceeds_copyArgument status argument).bind inductionHypothesis
  exact each _ 0

theorem proceeds_readLine (arguments : List String) : Proceeds (readLine arguments) := by
  unfold readLine
  refine proceeds_get.bind fun _ => (proceeds_change fun _ => ?_).bind fun _ => proceeds_pure _
  exact ⟨rfl, rfl, rfl, rfl, rfl, rfl⟩

theorem proceeds_exit (arguments : List String) : Proceeds (exit arguments) := by
  unfold exit
  cases arguments with
  | nil => exact proceeds_get.bind fun _ => proceeds_throw _
  | cons code _ =>
    simp only
    split
    · exact proceeds_throw _
    · exact (proceeds_complain _).bind fun _ => proceeds_throw _

theorem proceeds_printFormatted (arguments : List String) :
    Proceeds (printFormatted arguments) := by
  unfold printFormatted
  split
  · exact (proceeds_print _).bind fun _ => proceeds_pure _
  · exact (proceeds_complain _).bind fun _ => proceeds_pure _

theorem proceeds_pass (duration : Nat) : Proceeds (pass duration) := by
  intro state
  unfold pass
  rw [run_bind, run_get]
  simp only
  cases onward : state.later? duration with
  | none => exact state.leads_self
  | some later => exact State.leads_of_later? onward

theorem proceeds_plainProgram {name : String} {arguments : List String} {part : Run Nat}
    (plain : plainProgram? name arguments = some part) : Proceeds part := by
  unfold plainProgram? at plain
  split at plain
  · obtain rfl := Option.some.inj plain
    exact proceeds_pure _
  · split at plain <;> cases plain
    · exact proceeds_pure _
    · exact (proceeds_print _).bind fun _ => proceeds_pure _
    · exact proceeds_printFormatted _
    · exact proceeds_exit _
    · exact proceeds_copyInput _
    · exact proceeds_readLine _
    · exact (proceeds_setTraps _).bind fun _ => proceeds_pure _
    · exact proceeds_throw _
    · exact proceeds_throw _
    · exact proceeds_pure _
    · exact proceeds_pure _
    · exact (proceeds_change fun state => state.agrees_assignAll _).bind fun _ => proceeds_pure _

/-! ### Fewer steps and more -/

/-- A relation between parts of a run that is carried over by the ways to put parts together.
Whatever proceeds is related to itself, and a part that ran out of steps to anything. -/
structure Relates (Related : {α : Type} → Run α → Run α → Prop) : Prop where
  proceeding : ∀ {α : Type} {part : Run α}, Proceeds part → Related part part
  exhausted : ∀ {α : Type} (part : Run α), Related (throw .killed) part
  bind : ∀ {α β : Type} {part more : Run α} {rest others : α → Run β}, Related part more →
    (∀ value, Related (rest value) (others value)) → Related (part >>= rest) (more >>= others)
  tryCatch : ∀ {α : Type} {part more : Run α} {handler other : Jump → Run α}, Related part more →
    handler .killed = throw .killed → (∀ jump, Related (handler jump) (other jump)) →
      Related (tryCatch part handler) (tryCatch more other)

/-- What runs with so many steps is related to what runs with so many others. -/
structure AllRelated (Related : {α : Type} → Run α → Run α → Prop) (steps others : Nat) :
    Prop where
  source : ∀ script, Related (source steps script) (source others script)
  sourceApart : ∀ script, Related (sourceApart steps script) (sourceApart others script)
  receive : ∀ signal, Related (receive steps signal) (receive others signal)
  sleep : ∀ duration, Related (sleep steps duration) (sleep others duration)
  signal : ∀ name arguments, Related (signal steps name arguments) (signal others name arguments)
  runProgram : ∀ program arguments,
    Related (runProgram steps program arguments) (runProgram others program arguments)
  perform : ∀ command, Related (perform steps command) (perform others command)
  performOnce : ∀ body, Related (performOnce steps body) (performOnce others body)
  performEach : ∀ name values body,
    Related (performEach steps name values body) (performEach others name values body)

section Related

variable {Related : {α : Type} → Run α → Run α → Prop} {steps others : Nat}
variable (relates : Relates Related) (related : AllRelated Related steps others)

theorem related_ite {condition : Prop} [Decidable condition] {part more otherwise another : Run α}
    (holds : Related part more) (fails : Related otherwise another) :
    Related (if condition then part else otherwise) (if condition then more else another) := by
  split
  · exact holds
  · exact fails

include relates

theorem Relates.pure (value : α) : Related (pure value) (pure value) :=
  relates.proceeding (proceeds_pure value)

theorem Relates.throw (jump : Jump) : Related (throw jump : Run α) (throw jump) :=
  relates.proceeding (proceeds_throw jump)

/-- The rest of a run may depend on the state. -/
theorem Relates.get {rest others : State → Run α}
    (parts : ∀ state, Related (rest state) (others state)) :
    Related (get >>= rest) (get >>= others) :=
  relates.bind (relates.proceeding proceeds_get) parts

include related

theorem AllRelated.source_succ (script : String) :
    Related (Shell.source (steps + 1) script) (Shell.source (others + 1) script) := by
  rw [Shell.source, Shell.source]
  cases parse? script with
  | some command => exact related.perform command
  | none => exact relates.proceeding ((proceeds_complain _).bind fun _ => proceeds_throw _)

theorem AllRelated.sourceApart_succ (script : String) :
    Related (Shell.sourceApart (steps + 1) script) (Shell.sourceApart (others + 1) script) := by
  rw [Shell.sourceApart, Shell.sourceApart]
  cases parse? script with
  | some command => exact related.perform (.apart command)
  | none => exact relates.proceeding (proceeds_change fun _ => ⟨rfl, rfl, rfl, rfl, rfl, rfl⟩)

theorem AllRelated.receive_succ (signal : String) :
    Related (Shell.receive (steps + 1) signal) (Shell.receive (others + 1) signal) := by
  rw [Shell.receive, Shell.receive]
  refine related_ite (relates.throw .killed) (relates.get fun state => ?_)
  cases state.traps.lookup signal with
  | some script => exact related_ite (relates.pure ()) (related.source script)
  | none => exact related_ite (relates.pure ()) (relates.throw .killed)

theorem AllRelated.sleep_succ (duration : Nat) :
    Related (Shell.sleep (steps + 1) duration) (Shell.sleep (others + 1) duration) := by
  rw [Shell.sleep, Shell.sleep]
  refine relates.bind (relates.proceeding (proceeds_modify State.leads_catchUp)) fun _ =>
    relates.get fun state => ?_
  refine relates.bind (relates.proceeding (proceeds_modify State.leads_ask)) fun _ =>
    relates.get fun asked => ?_
  exact related_ite (relates.throw .killed)
    (relates.bind (relates.proceeding (proceeds_pass duration)) fun _ =>
      related_ite (related.receive "TERM") (relates.pure ()))

theorem AllRelated.signal_succ (name : String) (arguments : List String) :
    Related (Shell.signal (steps + 1) name arguments)
      (Shell.signal (others + 1) name arguments) := by
  cases arguments with
  | nil => exact relates.pure 0
  | cons argument rest =>
    rw [Shell.signal, Shell.signal]
    exact related_ite (related.signal _ _) (related_ite (related.signal _ _)
      (related_ite (relates.bind (related.receive name) fun _ => related.signal name rest)
        (related.signal name rest)))

theorem AllRelated.runProgram_succ (program : String) (arguments : List String) :
    Related (Shell.runProgram (steps + 1) program arguments)
      (Shell.runProgram (others + 1) program arguments) := by
  unfold Shell.runProgram
  cases plain : plainProgram? (bareName program) arguments with
  | some part => exact relates.proceeding (proceeds_plainProgram plain)
  | none =>
    have status : Related (get >>= fun state => pure state.status)
        (get >>= fun state => pure state.status) :=
      relates.get fun state => relates.pure state.status
    refine related_ite (relates.bind (related.sleep _) fun _ => relates.pure 0)
      (related_ite (related.signal _ _)
        (related_ite (relates.bind (related.source _) fun _ => status)
          (related_ite ?_ (related_ite ?_ ?_))))
    · cases givenScript? arguments with
      | some script => exact relates.bind (related.sourceApart script) fun _ => status
      | none => exact relates.pure 0
    · cases arguments with
      | nil => exact relates.pure 0
      | cons name arguments =>
        refine relates.bind (relates.proceeding (proceeds_change fun _ => ?_)) fun _ =>
          relates.bind (related.runProgram name arguments) fun _ => relates.throw _
        exact ⟨rfl, rfl, rfl, rfl, rfl, rfl⟩
    · exact relates.bind (relates.proceeding (proceeds_complain _)) fun _ => relates.pure 127

theorem AllRelated.performOnce_succ (body : Command) :
    Related (Shell.performOnce (steps + 1) body) (Shell.performOnce (others + 1) body) := by
  rw [Shell.performOnce, Shell.performOnce]
  refine relates.tryCatch ?_ rfl fun jump => ?_
  · exact relates.bind (related.perform body) fun _ => relates.proceeding (proceeds_pure true)
  · refine relates.proceeding ?_
    split
    · exact proceeds_pure _
    · exact proceeds_pure _
    · exact proceeds_throw _

theorem AllRelated.performEach_succ (name : String) (values : List String) (body : Command) :
    Related (Shell.performEach (steps + 1) name values body)
      (Shell.performEach (others + 1) name values body) := by
  cases values with
  | nil => exact relates.proceeding (proceeds_pure ())
  | cons value values =>
    rw [Shell.performEach, Shell.performEach]
    refine relates.bind (relates.proceeding (proceeds_change fun _ => ?_)) fun _ =>
      relates.bind (related.performOnce body) fun onward =>
        related_ite (related.performEach name values body) (relates.pure ())
    exact ⟨rfl, rfl, rfl, rfl, rfl, rfl⟩

theorem AllRelated.perform_succ (command : Command) :
    Related (Shell.perform (steps + 1) command) (Shell.perform (others + 1) command) := by
  have succeeded : Related (do pure ((← get).status == 0) : Run Bool)
      (do pure ((← get).status == 0)) :=
    relates.get fun state => relates.pure (state.status == 0)
  have changed : ∀ {change : State → State}, (∀ state : State, state.Agrees (change state)) →
      Related (modify change : Run Unit) (modify change) :=
    fun agrees => relates.proceeding (proceeds_change agrees)
  unfold Shell.perform
  cases command with
  | sequence commands =>
    cases commands with
    | nil => exact relates.pure ()
    | cons first rest =>
      exact relates.bind (related.perform first) fun _ => related.perform (.sequence rest)
  | apart body =>
    unfold runApart
    refine relates.get fun before => relates.tryCatch
      (relates.bind (related.perform body) fun _ => relates.get fun state => changed fun _ => ?_)
      rfl fun jump => ?_
    · exact ⟨rfl, rfl, rfl, rfl, rfl, rfl⟩
    · cases jump with
      | killed => exact relates.throw .killed
      | exited | leave | again => exact changed fun _ => ⟨rfl, rfl, rfl, rfl, rfl, rfl⟩
  | joined left right =>
    refine relates.get fun before => relates.bind (changed fun _ => ?_) fun _ =>
      relates.bind (related.perform (.apart left)) fun _ => relates.bind (changed fun _ => ?_)
        fun _ => relates.bind (related.perform (.apart right)) fun _ => changed fun _ => ?_
    all_goals exact ⟨rfl, rfl, rfl, rfl, rfl, rfl⟩
  | also left right expected =>
    exact relates.bind (related.perform left) fun _ => relates.bind succeeded fun _ =>
      related_ite (related.perform right) (relates.pure ())
  | choice test body otherwise =>
    exact relates.bind (related.perform test) fun _ => relates.bind succeeded fun _ =>
      related_ite (related.perform body) (related.perform otherwise)
  | cycle test body expected =>
    refine relates.bind (related.perform test) fun _ => relates.bind succeeded fun _ =>
      related_ite (relates.bind (related.performOnce body) fun _ =>
        related_ite (related.perform (.cycle test body expected)) (relates.pure ()))
        (changed fun _ => ?_)
    exact ⟨rfl, rfl, rfl, rfl, rfl, rfl⟩
  | each name words body => exact relates.get fun state => related.performEach name _ body
  | simple words redirections =>
    refine relates.get fun state => ?_
    rcases fieldsOf state words with ⟨settings, _ | ⟨program, arguments⟩⟩
    · refine changed fun state =>
        State.Agrees.trans ?_ (State.agrees_assignAll { state with status := 0 } settings)
      exact ⟨rfl, rfl, rfl, rfl, rfl, rfl⟩
    · refine relates.bind (changed fun state => state.agrees_redirected redirections) fun _ =>
        relates.bind (related.runProgram program arguments) fun status =>
          relates.bind (changed fun _ => ?_) fun _ => related_ite (changed fun _ => ?_)
            (relates.pure ())
      all_goals exact ⟨rfl, rfl, rfl, rfl, rfl, rfl⟩

end Related

section Related

variable {Related : {α : Type} → Run α → Run α → Prop} (relates : Relates Related)

include relates

/-- What runs with fewer steps is related to what runs with more. -/
theorem Relates.all {steps others : Nat} (fewer : steps ≤ others) :
    AllRelated Related steps others := by
  induction steps generalizing others with
  | zero =>
    refine ⟨?_, ?_, ?_, ?_, ?_, ?_, ?_, ?_, ?_⟩
    all_goals
      intros
      exact relates.exhausted _
  | succ steps inductionHypothesis =>
    cases others with
    | zero => cases fewer
    | succ others =>
      have related := inductionHypothesis (Nat.le_of_succ_le_succ fewer)
      exact ⟨related.source_succ relates, related.sourceApart_succ relates,
        related.receive_succ relates, related.sleep_succ relates, related.signal_succ relates,
        related.runProgram_succ relates, related.perform_succ relates,
        related.performOnce_succ relates, related.performEach_succ relates⟩

theorem Relates.trapEnd {steps others : Nat} (fewer : steps ≤ others) :
    Related (trapEnd steps) (trapEnd others) := by
  refine relates.get fun state => ?_
  cases state.traps.lookup "EXIT" with
  | none => exact relates.pure ()
  | some script =>
    refine relates.bind (relates.proceeding (proceeds_change fun _ => ?_)) fun _ =>
      (relates.all fewer).source script
    exact ⟨rfl, rfl, rfl, rfl, rfl, rfl⟩

theorem Relates.finish {steps others : Nat} (fewer : steps ≤ others) (script : String) :
    Related (finish steps script) (finish others script) := by
  unfold Shell.finish
  refine relates.bind (relates.tryCatch ((relates.all fewer).source script) rfl fun jump => ?_)
    fun _ => relates.get fun state => relates.bind (relates.trapEnd fewer) fun _ =>
      relates.throw _
  cases jump with
  | exited code =>
    refine relates.bind (relates.proceeding (proceeds_change fun _ => ?_)) fun _ =>
      relates.bind (relates.trapEnd fewer) fun _ => relates.throw _
    exact ⟨rfl, rfl, rfl, rfl, rfl, rfl⟩
  | killed | leave | again => exact relates.throw _

end Related

/-! ### What every run keeps -/

theorem relates_proceeds : Relates fun part _ => Proceeds part where
  proceeding := id
  exhausted := fun _ => proceeds_throw _
  bind := Proceeds.bind
  tryCatch := fun first _ second => first.tryCatch second

theorem proceeds_perform (steps : Nat) (command : Command) : Proceeds (perform steps command) :=
  (relates_proceeds.all le_rfl).perform command

/-- A script that was not started has copied all of nothing. -/
theorem State.isCopied_initial (request : Request) (impatient : Bool) :
    (initial request impatient).IsCopied :=
  ⟨Nat.zero_le _, List.nil_sublist _⟩

/-- Where a script ends, it was asked to end only if somebody wanted it to, and its time was not
over. -/
theorem isPunctual_finish (steps : Nat) (script : String) (request : Request) (impatient : Bool) :
    ((finish steps script).run (State.initial request impatient)).2.IsPunctual :=
  (relates_proceeds.finish le_rfl script (State.initial request impatient)).punctual nofun

/-! ### How many steps there are -/

/-- Unless the first part is killed, the second comes out as it does. -/
def Foretells (part more : Run α) : Prop :=
  ∀ state : State, (part.run state).1 ≠ .error .killed → more.run state = part.run state

theorem relates_foretells : Relates Foretells where
  proceeding := fun _ _ _ => rfl
  exhausted := fun _ _ spared => absurd rfl spared
  bind := by
    intro α β part more rest others first second state spared
    rw [run_bind] at spared ⊢
    rw [run_bind]
    rcases ended : part.run state with ⟨jump | value, after⟩ <;> rw [ended] at spared
    · rw [first state (by rw [ended]; simpa using spared), ended]
    · rw [first state (by rw [ended]; exact nofun), ended]
      exact second value after spared
  tryCatch := by
    intro α part more handler other first passes second state spared
    rw [run_tryCatch] at spared ⊢
    rw [run_tryCatch]
    rcases ended : part.run state with ⟨jump | value, after⟩ <;> rw [ended] at spared
    · have alive : jump ≠ .killed := by
        rintro rfl
        simp only [passes] at spared
        exact spared rfl
      rw [first state (by rw [ended]; simpa using alive), ended]
      exact second jump after spared
    · rw [first state (by rw [ended]; exact nofun), ended]

/-! ### A script of its own -/

theorem run_runApart (part : Run Unit) (state : State) :
    (runApart part).run state =
      match part.run state with
      | (.ok (), after) => (.ok (), after.returned state after.status)
      | (.error (.exited code), after) => (.ok (), after.returned state code)
      | (.error .killed, after) => (.error .killed, after)
      | (.error _, after) => (.ok (), after.returned state 0) := by
  show (tryCatch (part >>= fun _ => get >>= fun inner =>
    modify (·.returned state inner.status)) _ : Run Unit).run state = _
  rw [run_tryCatch, run_bind]
  rcases part.run state with ⟨(code | _ | _ | _) | _, after⟩ <;> rfl

/-- A command that runs on its own is killed, or it ends with the variables, the traps and the
descriptors that it began with. -/
theorem run_apart (steps : Nat) (body : Command) (state : State) :
    ((perform steps (.apart body)).run state).1 = .error .killed ∨
    ∃ after, (perform steps (.apart body)).run state = (.ok (), after) ∧
      after.bindings = state.bindings ∧ after.traps = state.traps ∧
      after.output = state.output ∧ after.complaints = state.complaints := by
  cases steps with
  | zero => exact .inl rfl
  | succ steps =>
    rw [perform, run_runApart]
    rcases (perform steps body).run state with ⟨(code | _ | _ | _) | _, after⟩
    · exact .inr ⟨_, rfl, rfl, rfl, rfl, rfl⟩
    · exact .inl rfl
    · exact .inr ⟨_, rfl, rfl, rfl, rfl, rfl⟩
    · exact .inr ⟨_, rfl, rfl, rfl, rfl, rfl⟩
    · exact .inr ⟨_, rfl, rfl, rfl, rfl, rfl⟩

example : (runWithin 50 "(x=1; exit 3); echo $?$x | cat" .never false).printed =
    Text.octetsOf "3\n" := by
  decide +kernel

/-! ### Whole scripts -/

variable {steps others : Nat} {script : String} {request : Request} {impatient : Bool}

/-- What a script leaves behind: all lines that were copied of what it printed stand in the log,
in their order, and the first report among them gives the address. -/
theorem runWithin_copies (steps : Nat) (script : String) (request : Request) (impatient : Bool) :
    (follow (runWithin steps script request impatient).printed).logged.Sublist
        (runWithin steps script request impatient).logged ∧
      (runWithin steps script request impatient).address =
        (follow (runWithin steps script request impatient).printed).address := by
  unfold runWithin
  split
  · exact ⟨List.nil_sublist _, rfl⟩
  · have leads := relates_proceeds.finish (le_refl steps) script (State.initial request impatient)
    have copied := leads.copied (State.isCopied_initial request impatient)
    have whole := (followSoFar_append
      ((finish steps script).run (State.initial request impatient)).2.printed []).1
    rw [List.append_nil] at whole
    exact ⟨copied.sublist_copy whole, rfl⟩

/-- A script that ended with a code leaves the same behind however many more steps it may take. -/
theorem runWithin_of_le (fewer : steps ≤ others) {code : Nat}
    (ended : (runWithin steps script request impatient).code = some code) :
    runWithin others script request impatient = runWithin steps script request impatient := by
  unfold runWithin at ended ⊢
  split
  · rfl
  · rename_i started
    rw [if_neg started] at ended
    have same := relates_foretells.finish fewer script (State.initial request impatient)
    rw [same]
    intro killed
    rcases whole : (finish steps script).run (State.initial request impatient) with ⟨jump, state⟩
    rw [whole] at killed ended
    obtain rfl : jump = .error .killed := killed
    cases ended

end VmFleet.Shell
