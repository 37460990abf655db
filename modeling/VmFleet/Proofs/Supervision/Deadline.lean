/-
This file says for which configurations all times can be told. The rules for configurations
compare times with each other only, so a file may name a cutoff or a time for a boot that lies
beyond all times: a negative number counts down from the top of the words. Where the cutoff can
be told the daemon is made, and else the program ends there. Where the deadline of a boot can
be told its machine is handed over, and else it is abandoned: in no later state anybody watches
it, and it stays registered for good.
-/

import VmFleet.Program.Run
import VmFleet.Proofs.Config.Validation
import VmFleet.Proofs.Supervision.Ceiling
import VmFleet.Proofs.Supervision.Identity

namespace VmFleet

namespace Daemon

variable {daemon later : Daemon} {serial : Nat} {boot : Boot}

/-! ### Machines nobody watches -/

/-- A request that broke off after its process was started, so that neither the race nor the
reaper is there. -/
structure Unwatched (daemon : Daemon) (serial : Nat) (boot : Boot) : Prop extends
    BrokeOff daemon serial boot where
  abandoned : boot.request = .abandoned

theorem Unwatched.run (unwatched : daemon.Unwatched serial boot) {events : List Event}
    (ran : daemon.run? events = some later) : later.Unwatched serial boot :=
  ⟨unwatched.toBrokeOff.run ran, unwatched.abandoned⟩

/-- Such a machine is registered. -/
theorem Unwatched.registers (unwatched : daemon.Unwatched serial boot) (owned : daemon.Owned) :
    daemon.Registers serial := by
  refine (owned.registers_iff serial).mpr ⟨boot, unwatched.found, ?_⟩
  rw [Boot.holds, unwatched.abandoned]
  rfl

/-! ### Handing over -/

/-- What becomes of a machine whose process was started. -/
theorem handOver_outcome (owned : daemon.Owned) (found : daemon.boots[serial]? = some boot)
    (started : boot.request = .started) (now : Int) :
    ∃ next after, daemon.step? (.handOver serial now) = some next ∧
      next.boots[serial]? = some after ∧
      (now + daemon.setup.settings.bootTimeout.toNat < Config.timeLimit →
        after = { boot with request := .waiting, race := .listening, reaper := .watching }) ∧
      (Config.timeLimit ≤ now + daemon.setup.settings.bootTimeout.toNat →
        after = { boot with request := .abandoned } ∧
        ∀ events later, next.run? events = some later →
          later.Unwatched serial after ∧ later.Registers serial) := by
  have rule := Rule.handOver now found started
  have stepped := step?_of_rule rule
  have inside := (List.getElem?_eq_some_iff.mp found).1
  rcases Int.lt_or_le (now + daemon.setup.settings.bootTimeout.toNat) Config.timeLimit with
    told | untold
  · refine ⟨_, _, stepped, ?_, fun _ => rfl, fun untold => absurd told (Int.not_lt.mpr untold)⟩
    rw [handOver_of_told told]
    exact List.getElem?_set_self inside
  · have there : (daemon.handOver serial boot now).boots[serial]? =
        some { boot with request := .abandoned } := by
      rw [handOver_of_untold untold]
      exact List.getElem?_set_self inside
    refine ⟨_, _, stepped, there, fun told => absurd told (Int.not_lt.mpr untold),
      fun _ => ⟨rfl, fun events later ran => ?_⟩⟩
    obtain ⟨race, reaper⟩ := owned.phased serial boot found (by rw [started]; rfl)
    have unwatched : (daemon.handOver serial boot now).Unwatched serial
        { boot with request := .abandoned } := ⟨⟨there, rfl, race, reaper⟩, rfl⟩
    have stays := unwatched.run ran
    exact ⟨stays, stays.registers ((owned.step stepped).run ran)⟩

end Daemon

/-! ### Which configurations -/

namespace Program

variable {config : Config}

theorem isSome_daemon? (host : Host) (config : Config) :
    (host.daemon? config).isSome = true ↔ (config.staleBefore.toNat : Int) < Config.timeLimit := by
  unfold Host.daemon? Config.store? Config.cutoff?
  rw [Option.isSome_map, Option.isSome_map, Option.isSome_map, Config.isSome_later?, Int.zero_add]

/-- The program ends in the middle of starting a daemon exactly if there is no daemon to start. -/
theorem code_startDaemon (link : Client.Link Id) (host : Host) (config : Config)
    (endpoint : Socket) (made : Option Daemon) :
    (startDaemon link host config (.ok endpoint) made).1.code = 101 ↔ made = none := by
  cases made with
  | none => exact iff_of_true rfl rfl
  | some daemon =>
    refine iff_of_false ?_ nofun
    unfold startDaemon
    dsimp only [bind, pure]
    split
    · show 0 ≠ 101
      decide
    · show 1 ≠ 101
      decide

theorem code_serve (valid : config.validate = .ok ()) (link : Client.Link Id) (host : Host) :
    (serve link host config).1.code = 101 ↔ Config.timeLimit ≤ config.staleBefore.toNat := by
  obtain ⟨endpoint, named⟩ := Config.exists_endpoint_of_validate valid
  have made := isSome_daemon? (host.openLog config).2 config
  have ends : (serve link host config).1.code = 101 ↔
      (host.openLog config).2.daemon? config = none := by
    have started : serve link host config = startDaemon link (host.openLog config).2 config
        (.ok endpoint) ((host.openLog config).2.daemon? config) := by
      rw [← named]
      rfl
    rw [started]
    exact code_startDaemon _ _ _ _ _
  rw [ends, ← Option.not_isSome_iff_eq_none, made, Int.not_lt]

/-- What a daemon on a host can come to be has one owner for each machine, and its time for boots
is that of its configuration. -/
theorem owned_of_daemon? {host : Host} {start daemon : Daemon}
    (made : host.daemon? config = some start) (reached : Daemon.Reachable start daemon) :
    daemon.Owned ∧ daemon.setup.settings.bootTimeout = config.bootSeconds := by
  unfold Host.daemon? at made
  obtain ⟨store, -, rfl⟩ := Option.map_eq_some_iff.mp made
  obtain ⟨events, ran⟩ := Daemon.reachable_iff.mp reached
  refine ⟨(Daemon.owned_initial _ host.tree).run ran, ?_⟩
  rw [Daemon.setup_of_reachable reached]
  rfl

/-! ### The result -/

/-- Acceptance says nothing about how late a time may be, so for every configuration that was
loaded it depends on its values alone. A daemon is made, and the program does not end in the
middle of starting it, exactly if the cutoff lies before the end of all times. In every state
of that daemon the deadline of a machine whose process was started is told at whatever time
exactly if it lies before the end of all times; then the race and the reaper start. Else the
machine is abandoned: neither of them is there in any later state, and it stays registered. -/
theorem times_told_iff {files : Tree} {place : Location} {path : Path}
    (loaded : Config.load files place path = .ok config) (link : Client.Link Id) (host : Host) :
    ((host.daemon? config).isSome = true ↔ (config.staleBefore.toNat : Int) < 2 ^ 63) ∧
    ((serve link host config).1.code = 101 ↔ 2 ^ 63 ≤ (config.staleBefore.toNat : Int)) ∧
    ∀ start daemon, host.daemon? config = some start → Daemon.Reachable start daemon →
      ∀ serial boot (now : Int), daemon.boots[serial]? = some boot → boot.request = .started →
        ∃ next after, daemon.step? (.handOver serial now) = some next ∧
          next.boots[serial]? = some after ∧
          (now + config.bootSeconds.toNat < 2 ^ 63 →
            after = { boot with request := .waiting, race := .listening, reaper := .watching }) ∧
          (2 ^ 63 ≤ now + config.bootSeconds.toNat →
            after = { boot with request := .abandoned } ∧
            ∀ events later, next.run? events = some later →
              later.Unwatched serial after ∧ later.Registers serial) := by
  have told := isSome_daemon? host config
  have ends := code_serve (Config.validate_of_load loaded) link host
  have limit : Config.timeLimit = 2 ^ 63 := by decide
  rw [limit] at told ends
  refine ⟨told, ends, fun start daemon made reached serial boot now found started => ?_⟩
  obtain ⟨owned, boots⟩ := owned_of_daemon? made reached
  have outcome := Daemon.handOver_outcome owned found started now
  rw [boots, limit] at outcome
  exact outcome

/-! ### Hosts with a configuration and an image -/

/-- A host with these lines for a configuration, and an image. -/
def stockedHost (lines : String) : Host where
  tree := ⟨([(["fleet.toml"], Node.file (Text.octetsOf lines)), (["c"], .directory default),
      (["c", "flotilla"], .directory default), (["c", "flotilla", "images"], .directory default),
      (["c", "flotilla", "images", "alpha"], .directory default),
      (["c", "flotilla", "images", "alpha", "1.2.3"], .directory default),
      (["c", "flotilla", "images", "alpha", "1.2.3", "vmlinuz"], .file []),
      (["c", "flotilla", "images", "alpha", "1.2.3", "initrd.cpio.gz"], .file [])]).map
    fun (names, node) => (names.reverse.map Text.octetsOf, node), default, []⟩
  place := []
  environment := ⟨none, none, some "/c", some "/d"⟩
  privileged := true
  memory := 16777216 * 1024

/-- The configuration with these times. -/
def timed (staleBefore bootSeconds callSeconds : UInt64) : Config :=
  { Config.standard with staleBefore, bootSeconds, callSeconds }

/-- The runner of a machine is started. -/
def launched : List Event :=
  [.submit (Vm.draft "alpha" "1.2.3"), .reserve 0 (Daemon.drawing 1) 7, .prepare 0, .announce 0,
    .launch 0 (.ok ⟨100, false⟩)]

/-- The first request has started its process. -/
def startsFirst (daemon : Daemon) : Bool :=
  daemon.boots[0]?.any fun boot =>
    match boot.request with
    | .started => true
    | _ => false

theorem exists_started {daemon : Daemon} (starts : startsFirst daemon = true) :
    ∃ boot, daemon.boots[0]? = some boot ∧ boot.request = .started := by
  obtain ⟨boot, found, phase⟩ := (Option.any_eq_true _ _).mp starts
  refine ⟨boot, found, ?_⟩
  split at phase
  · assumption
  · cases phase

/-- A machine whose process was started, of a daemon that was made on such a host. -/
theorem exists_launched {lines : String} {config : Config}
    (starts : (((stockedHost lines).daemon? config).any
      fun start => (start.run? launched).any startsFirst) = true) :
    ∃ start daemon boot, (stockedHost lines).daemon? config = some start ∧
      Daemon.Reachable start daemon ∧ daemon.boots[0]? = some boot ∧ boot.request = .started := by
  obtain ⟨start, made, ran⟩ := (Option.any_eq_true _ _).mp starts
  obtain ⟨daemon, run, starts⟩ := (Option.any_eq_true _ _).mp ran
  obtain ⟨boot, found, started⟩ := exists_started starts
  exact ⟨start, daemon, boot, made, Daemon.reachable_iff.mpr ⟨_, run⟩, found, started⟩

/-- Five seconds for a boot. -/
def soon : String := "[timeouts]\nboot_s = 5"

theorem startsFirst_soon :
    (((stockedHost soon).daemon? (timed ImageStore.formatBreak 5 40)).any
      fun start => (start.run? launched).any startsFirst) = true := by
  decide +kernel

theorem times_told_iff_of_soon :
    ∃ start daemon boot,
      (stockedHost soon).daemon? (timed ImageStore.formatBreak 5 40) = some start ∧
      Daemon.Reachable start daemon ∧ daemon.boots[0]? = some boot ∧
      ∃ next, daemon.step? (.handOver 0 1000) = some next ∧
        next.boots[0]? =
          some { boot with request := .waiting, race := .listening, reaper := .watching } := by
  have loaded : Config.load (stockedHost soon).tree [] (Path.ofString "/fleet.toml") =
      .ok (timed ImageStore.formatBreak 5 40) := by
    decide +kernel
  obtain ⟨start, daemon, boot, made, reached, found, started⟩ := exists_launched startsFirst_soon
  obtain ⟨-, -, outcome⟩ := times_told_iff loaded Client.Link.silent (stockedHost soon)
  obtain ⟨next, after, stepped, there, told, -⟩ :=
    outcome start daemon made reached 0 boot 1000 found started
  obtain rfl := told (by decide)
  exact ⟨start, daemon, boot, made, reached, found, next, stepped, there⟩

/-- The last second of all for a cutoff. -/
def farCutoff : String := "[images]\nstale_before_unix = -1"

/-- The last but one second for a boot. -/
def late : String := "[timeouts]\nboot_s = -2\ncall_s = -1"

/-- The configuration with these lines. -/
def lateConfig : Config :=
  timed ImageStore.formatBreak (UInt64.ofNat (2 ^ 64 - 2)) (UInt64.ofNat (2 ^ 64 - 1))

theorem startsFirst_late :
    (((stockedHost late).daemon? lateConfig).any
      fun start => (start.run? launched).any startsFirst) = true := by
  decide +kernel

/-- A negative number in a configuration is a late time. With such a cutoff no daemon is made,
and with such a time for boots a machine whose process was started is abandoned. -/
theorem accepted_times_beyond_all_times :
    (∃ config, Config.load (stockedHost farCutoff).tree []
        (Path.ofString "/fleet.toml") = .ok config ∧
      (stockedHost farCutoff).daemon? config = none) ∧
    Config.load (stockedHost late).tree [] (Path.ofString "/fleet.toml") = .ok lateConfig ∧
    ∃ start daemon next after, (stockedHost late).daemon? lateConfig = some start ∧
      Daemon.Reachable start daemon ∧ daemon.step? (.handOver 0 0) = some next ∧
      next.Unwatched 0 after ∧ next.Registers 0 := by
  refine ⟨⟨timed (UInt64.ofNat (2 ^ 64 - 1)) 30 40, by decide +kernel, ?_⟩, by decide +kernel, ?_⟩
  · rw [← Option.not_isSome_iff_eq_none, isSome_daemon?]
    decide
  · obtain ⟨start, daemon, boot, made, reached, found, started⟩ := exists_launched startsFirst_late
    obtain ⟨owned, boots⟩ := owned_of_daemon? made reached
    obtain ⟨next, after, stepped, -, -, abandons⟩ :=
      Daemon.handOver_outcome owned found started 0
    rw [boots] at abandons
    obtain ⟨-, stays⟩ := abandons (by decide)
    exact ⟨start, daemon, next, after, made, reached, stepped, stays [] next rfl⟩

end Program

end VmFleet
