/-
This file proves that a command line to boot a machine denotes its draft. What is wished of the
machine is written as one setting for each value, and the settings may stand in any order in which
the volumes keep their sequence and the arguments of the runner keep theirs. An option that may not
be repeated has one value at most, so its value is found whatever the order is; the values of the
two others are found in their sequence. Hence the line is read as the request with just what was
wished, and whatever was left open has its standard value.
-/

import VmFleet.Proofs.CommandLine.Setting

namespace VmFleet.CommandLine

open VmFleet.Text

/-- What is wished of a machine. An option that is left out has no value. -/
structure Wish where
  channel : Option String
  version : Option String
  uuid : Option String
  name : Option String
  memoryMb : Option UInt64
  cpus : Option UInt32
  root : Option String
  volumes : List String
  cdrom : Option String
  kernelArgs : Option String
  runnerArgs : List String
deriving DecidableEq, Repr

namespace Wish

variable {wish : Wish} {settings : List Setting}

/-- What is given for the wish: for each option its values, where numbers are written in
decimal. -/
def given (wish : Wish) : Given :=
  [("channel", wish.channel.toList),
    ("version", wish.version.toList),
    ("uuid", wish.uuid.toList),
    ("name", wish.name.toList),
    ("memory", (wish.memoryMb.map fun number => ofNat number.toNat).toList),
    ("cpus", (wish.cpus.map fun number => ofNat number.toNat).toList),
    ("root", wish.root.toList),
    ("volume", wish.volumes),
    ("cdrom", wish.cdrom.toList),
    ("boot", wish.kernelArgs.toList),
    ("extra", wish.runnerArgs)]

/-- The paths that are wished: all volumes and the disc. -/
def paths (wish : Wish) : List String :=
  wish.root.toList ++ wish.volumes ++ wish.cdrom.toList

/-- The request that the wish stands for: what was wished, and the standard value of everything
that was left open. -/
def request (wish : Wish) : RunRequest where
  channel := wish.channel.getD "alpha"
  version := wish.version.getD "latest"
  uuid := wish.uuid.getD "random"
  name := wish.name.getD ""
  memoryMb := wish.memoryMb.getD 1024
  cpus := wish.cpus.getD 1
  root := wish.root
  volumes := wish.volumes
  cdrom := wish.cdrom
  kernelArgs := wish.kernelArgs.getD ""
  runnerArgs := wish.runnerArgs

/-- The settings are those of the wish in some order. The volumes follow one another as they were
wished, and so do the arguments of the runner. -/
structure Arranged (wish : Wish) (settings : List Setting) : Prop where
  perm : settings.Perm wish.given.settings
  volumes : (settings.filter (·.name = "volume")).map (·.value) = wish.volumes
  runnerArgs : (settings.filter (·.name = "extra")).map (·.value) = wish.runnerArgs

/-! ### The settings of a wish -/

/-- No option is given in two places. -/
theorem values_given (wish : Wish) : ∀ row ∈ wish.given, wish.given.values row.1 = row.2 := by
  simp [given, Given.values]

/-- What may not be repeated is given once or left out. -/
theorem length_values_le_one (wish : Wish) : ∀ rule ∈ Verb.run.options, rule.repeats = false →
    (wish.given.values rule.name).length ≤ 1 := by
  simp [Verb.options, Verb.ownOptions, Verb.runOptions, setting, helpOption, given, Given.values,
    Option.length_toList_le]

/-- Numbers fit their words, so every value passes its check if no path is empty. -/
theorem checkValue_given (named : ∀ path ∈ wish.paths, path ≠ "") : ∀ rule ∈ Verb.runOptions,
    ∀ value ∈ wish.given.values rule.name, checkValue rule.form value = .ok () := by
  have memory (number : UInt64) : unsigned? word64 (ofNat number.toNat).toList = some number.toNat :=
    unsigned?_ofNat number.toNat_lt
  have cpus (number : UInt32) :
      unsignedOfSigned? word32 (ofNat number.toNat).toList = some number.toNat :=
    unsignedOfSigned?_ofNat number.toNat_lt
  have root : ∀ path, wish.root = some path → path ≠ "" :=
    fun path given => named path (by simp [paths, given])
  have volume : ∀ path ∈ wish.volumes, path ≠ "" :=
    fun path given => named path (by simp [paths, given])
  have cdrom : ∀ path, wish.cdrom = some path → path ≠ "" :=
    fun path given => named path (by simp [paths, given])
  simpa [Verb.runOptions, setting, given, Given.values, checkValue, memory, cpus] using
    ⟨root, volume, cdrom⟩

/-- The settings of a wish are settings of the verb. -/
theorem suits_of_mem (named : ∀ path ∈ wish.paths, path ≠ "") :
    ∀ setting ∈ wish.given.settings, ∃ rule, setting.Suits .run rule := by
  intro setting member
  have declared : ∀ rule ∈ Verb.runOptions,
      Verb.run.optionNamed? rule.name = some rule ∧ rule.takesValue = true := by
    decide
  have names : wish.given.map Prod.fst = Verb.runOptions.map (·.name) := rfl
  obtain ⟨rule, among, same⟩ :=
    List.mem_map.mp (names ▸ Given.name_mem_of_mem_settings member)
  have inside := Given.value_mem_values member
  rw [← same] at inside
  obtain ⟨known, takesValue⟩ := declared rule among
  exact ⟨rule, same ▸ known, takesValue, checkValue_given named rule among _ inside⟩

/-! ### Any order -/

/-- A row of one or none has one order. -/
theorem eq_of_perm_of_length_le_one {α : Type} {left right : List α} (perm : left.Perm right)
    (short : right.length ≤ 1) : left = right := by
  match right, short with
  | [], _ => exact perm.eq_nil
  | [value], _ => exact List.perm_singleton.mp perm

/-- Each option has the same values in every arrangement. -/
theorem Arranged.values_eq (arranged : wish.Arranged settings) : ∀ rule ∈ Verb.run.options,
    Given.values (settings.map Setting.entry) rule.name = wish.given.values rule.name := by
  intro rule member
  have perm := Given.values_perm arranged.perm rule.name
  -- of most options there is one value at most, which has no order; the others keep their sequence
  cases repeats : rule.repeats with
  | false => exact eq_of_perm_of_length_le_one perm (wish.length_values_le_one rule member repeats)
  | true =>
    have only : ∀ rule ∈ Verb.run.options, rule.repeats = true →
        rule.name = "volume" ∨ rule.name = "extra" := by
      decide
    rcases only rule member repeats with volume | extra
    · rw [volume, Given.values_map_entry, arranged.volumes]
      exact (wish.values_given ("volume", wish.volumes) (by simp [given])).symm
    · rw [extra, Given.values_map_entry, arranged.runnerArgs]
      exact (wish.values_given ("extra", wish.runnerArgs) (by simp [given])).symm

/-- An arrangement sets nothing twice that may not be repeated. -/
theorem Arranged.unrepeated (arranged : wish.Arranged settings) :
    Setting.Unrepeated .run settings := by
  intro rule member once
  rw [← Given.length_values_map_entry, arranged.values_eq rule member]
  exact wish.length_values_le_one rule member once

/-! ### The request -/

/-- A request depends only on the values of the options. -/
theorem toRunRequest_congr {given other : Given}
    (same : ∀ rule ∈ Verb.run.options, given.values rule.name = other.values rule.name) :
    given.toRunRequest = other.toRunRequest := by
  simp only [Verb.options, Verb.ownOptions, Verb.runOptions, setting, List.cons_append,
    List.forall_mem_cons] at same
  simp only [Given.toRunRequest, Given.numberOr, Given.valueOr, same]

/-- What is given for the wish is read as its request. -/
theorem toRunRequest_given (wish : Wish) : wish.given.toRunRequest = wish.request := by
  have text (name standard : String) (value : Option String)
      (row : (name, value.toList) ∈ wish.given)
      (declared : (Verb.run.optionNamed? name).bind (·.standard) = some standard) :
      wish.given.valueOr .run name = value.getD standard :=
    Given.valueOr_eq (wish.values_given _ row) declared
  have channel := text "channel" "alpha" wish.channel (by simp [given]) (by decide)
  have version := text "version" "latest" wish.version (by simp [given]) (by decide)
  have uuid := text "uuid" "random" wish.uuid (by simp [given]) (by decide)
  have name := text "name" "" wish.name (by simp [given]) (by decide)
  have boot := text "boot" "" wish.kernelArgs (by simp [given]) (by decide)
  have memory : wish.given.numberOr .run "memory" = (wish.memoryMb.getD 1024).toNat :=
    Given.numberOr_eq (by simp [given, Given.values]) (by decide) (UInt64.toNat_lt _)
  have cpus : wish.given.numberOr .run "cpus" = (wish.cpus.getD 1).toNat :=
    Given.numberOr_eq (by simp [given, Given.values]) (by decide)
      (Nat.lt_trans (UInt32.toNat_lt _) (by decide))
  have root := wish.values_given ("root", wish.root.toList) (by simp [given])
  have volumes := wish.values_given ("volume", wish.volumes) (by simp [given])
  have cdrom := wish.values_given ("cdrom", wish.cdrom.toList) (by simp [given])
  have extra := wish.values_given ("extra", wish.runnerArgs) (by simp [given])
  simp only [Given.toRunRequest, request, channel, version, uuid, name, memory, cpus, root,
    volumes, cdrom, boot, extra, UInt64.ofNat_toNat, UInt32.ofNat_toNat, Option.head?_toList]

/-! ### The line -/

/-- The program reads the words behind the verb as the verb does, and nothing was given for the
program itself. -/
theorem parse_run {words : List String} {given : Given}
    (reads : readVerb [.program, .run] .run Progress.initial words = .ok [(.run, given)]) :
    parse ("run" :: words) = .ok ⟨none, false, .run given.toRunRequest⟩ := by
  have starts : startsVerb .program Progress.initial "run" = true := by decide
  have named : Verb.program.belowNamed? "run" = some .run := by decide
  have whole : CommandLine.read ("run" :: words) = .ok [(.program, []), (.run, given)] := by
    rw [CommandLine.read, readVerb, if_pos starts, named]
    simp only [List.cons_append, List.nil_append, reads]
    rfl
  rw [parse, whole]
  rfl

/-- A command line that boots a machine denotes its draft. Whatever the values are, and in whatever
order the settings stand, the line is read as the request with just the values that are wished; the
root volume is attached first and then the others in their sequence; and the draft has these values
and is as any other draft in what no option sets. Texts may be empty, only paths may not. -/
theorem line_denotes_draft (wish : Wish) (settings : List Setting)
    (arranged : wish.Arranged settings) (named : ∀ path ∈ wish.paths, path ≠ "") :
    parse ("run" :: settings.map Setting.word) = .ok ⟨none, false, .run wish.request⟩ ∧
      wish.request.attached = wish.root.toList ++ wish.volumes ∧
      ∀ version storage cdrom,
        wish.request.draft version storage cdrom =
          { uuid := wish.uuid.getD "random"
            name := wish.name.getD ""
            mac := ""
            channel := wish.channel.getD "alpha"
            version := version
            cpus := wish.cpus.getD 1
            memoryMb := wish.memoryMb.getD 1024
            publicIp := ""
            pid := -1
            createdAt := 0
            storage := storage
            cdrom := cdrom
            kernelArgs := wish.kernelArgs.getD ""
            runnerArgs := wish.runnerArgs
            state := .reserved } := by
  have suits : ∀ setting ∈ settings, ∃ rule, setting.Suits .run rule :=
    fun setting member => suits_of_mem named setting (arranged.perm.mem_iff.mp member)
  have reads : readVerb [.program, .run] .run Progress.initial (settings.map Setting.word) =
      .ok [(.run, settings.map Setting.entry)] := by
    have whole := Setting.readVerb_words [.program, .run] [] [] suits arranged.unrepeated
    rw [List.append_nil, List.nil_append] at whole
    exact whole
  have request : Given.toRunRequest (settings.map Setting.entry) = wish.request :=
    (toRunRequest_congr arranged.values_eq).trans wish.toRunRequest_given
  rw [parse_run reads, request]
  exact ⟨rfl, rfl, fun _ _ _ => rfl⟩

/-- A wish whose values look like options, verbs and settings. -/
def misleading : Wish where
  channel := some "--channel=beta"
  version := none
  uuid := some "-V"
  name := some "web server"
  memoryMb := some 18446744073709551615
  cpus := some 4294967295
  root := some "--help"
  volumes := ["a=b", "kill"]
  cdrom := none
  kernelArgs := some "root=/dev/vda quiet"
  runnerArgs := ["--", "-s", "--extra=run"]

/-- The settings of that wish in a mixed order. -/
def mixed : List Setting :=
  [⟨"extra", "--"⟩, ⟨"volume", "a=b"⟩, ⟨"memory", "18446744073709551615"⟩, ⟨"name", "web server"⟩,
    ⟨"extra", "-s"⟩, ⟨"root", "--help"⟩, ⟨"uuid", "-V"⟩, ⟨"cpus", "4294967295"⟩,
    ⟨"boot", "root=/dev/vda quiet"⟩, ⟨"volume", "kill"⟩, ⟨"extra", "--extra=run"⟩,
    ⟨"channel", "--channel=beta"⟩]

theorem line_denotes_draft_of_misleading :
    parse ["run", "--extra=--", "--volume=a=b", "--memory=18446744073709551615",
        "--name=web server", "--extra=-s", "--root=--help", "--uuid=-V", "--cpus=4294967295",
        "--boot=root=/dev/vda quiet", "--volume=kill", "--extra=--extra=run",
        "--channel=--channel=beta"] =
      .ok ⟨none, false, .run
        ⟨"--channel=beta", "latest", "-V", "web server", 18446744073709551615, 4294967295,
          some "--help", ["a=b", "kill"], none, "root=/dev/vda quiet",
          ["--", "-s", "--extra=run"]⟩⟩ ∧
      misleading.request.attached = ["--help", "a=b", "kill"] ∧
      misleading.request.draft "1.2.3" ["/c", "/a", "/k"] none =
        ⟨"-V", "web server", "", "--channel=beta", "1.2.3", 4294967295, 18446744073709551615, "",
          -1, 0, ["/c", "/a", "/k"], none, "root=/dev/vda quiet", ["--", "-s", "--extra=run"],
          .reserved⟩ := by
  have written : mixed.map Setting.word =
      ["--extra=--", "--volume=a=b", "--memory=18446744073709551615", "--name=web server",
        "--extra=-s", "--root=--help", "--uuid=-V", "--cpus=4294967295",
        "--boot=root=/dev/vda quiet", "--volume=kill", "--extra=--extra=run",
        "--channel=--channel=beta"] := by
    decide +kernel
  obtain ⟨parsed, attached, draft⟩ := line_denotes_draft misleading mixed
    ⟨by decide +kernel, by decide +kernel, by decide +kernel⟩ (by decide)
  rw [written] at parsed
  exact ⟨parsed, attached, draft _ _ _⟩

end Wish

end VmFleet.CommandLine
