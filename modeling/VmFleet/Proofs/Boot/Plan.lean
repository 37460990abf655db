/-
This file proves which files a planned boot hands to the runner. A plan is made just if the
directory that the channel and the version are joined to holds every artifact, and it hands
over the artifacts there. Of a channel of the store and a version spelt as one, that is the
directory of the image; other texts are joined as they come and may lead elsewhere.
-/

import VmFleet.Boot.Plan
import VmFleet.Proofs.Files.Canonical
import VmFleet.Proofs.Images.Requests

namespace VmFleet

open VmFleet.Text

/-- The store of a configuration has a text for its root. -/
theorem Config.isText_root {config : Config} {environment : Environment} {store : ImageStore}
    (stored : config.store? environment = some store) : store.root.IsText := by
  obtain ⟨cutoff, -, rfl⟩ := Option.map_eq_some_iff.mp stored
  show (config.storePath environment).IsText
  unfold storePath
  split
  · exact ⟨_, rfl⟩
  · refine Path.IsText.child (Path.IsText.child ?_ _) _
    unfold Environment.directory
    dsimp only
    split
    · rename_i path _ named
      obtain ⟨setting, -, rfl⟩ := Option.map_eq_some_iff.mp (Option.filter_eq_some_iff.mp named).1
      exact ⟨setting, rfl⟩
    · exact Path.IsText.child ⟨_, rfl⟩ _
    · exact ⟨_, rfl⟩

namespace BootPlan

variable {store : ImageStore} {runner : Path} {vm : Vm} {places : RunDirectory} {tree : Tree}
  {plan : BootPlan}

/-! ### What a plan is made of -/

/-- A plan is made just if the image has its artifacts, the volumes and the disc are there, and
there is a kernel; it hands over the artifacts of the image. -/
theorem make_eq_ok : make store runner vm places tree = .ok plan ↔
    store.isComplete tree (store.versionDirectory vm.channel vm.version) = true ∧
      (∀ volume ∈ vm.storage, tree.pathExists [] (Path.ofString volume) = true) ∧
      (∀ disc ∈ vm.cdrom, tree.isFile [] (Path.ofString disc) = true) ∧
      ∃ kernel others, store.artifacts = kernel :: others ∧
        plan = ⟨runner, argumentsFor vm places
          ((store.versionDirectory vm.channel vm.version).child kernel)
          (others.head?.map (store.versionDirectory vm.channel vm.version).child), places.log⟩ := by
  have volumes : (∀ volume ∈ vm.storage, tree.pathExists [] (Path.ofString volume) = true) ↔
      vm.storage.find? (fun volume => !tree.pathExists [] (Path.ofString volume)) = none := by
    simp [List.find?_eq_none]
  have disc : (∀ disc ∈ vm.cdrom, tree.isFile [] (Path.ofString disc) = true) ↔
      vm.cdrom.filter (fun disc => !tree.isFile [] (Path.ofString disc)) = none := by
    simp [Option.filter_eq_none_iff]
  rw [volumes, disc]
  unfold make
  by_cases complete : store.isComplete tree (store.versionDirectory vm.channel vm.version) = true
  · rcases vm.storage.find? (fun volume => !tree.pathExists [] (Path.ofString volume)) with
      _ | volume
    · rcases vm.cdrom.filter (fun disc => !tree.isFile [] (Path.ofString disc)) with _ | disc
      · rcases store.artifacts with _ | ⟨kernel, others⟩
        · simp [complete, throw, throwThe, MonadExceptOf.throw]
        · simp [complete, pure, Except.pure, eq_comm]
      · simp [complete, bind, Except.bind, throw, throwThe, MonadExceptOf.throw]
    · simp [complete, bind, Except.bind, throw, throwThe, MonadExceptOf.throw]
  · simp [complete, bind, Except.bind, throw, throwThe, MonadExceptOf.throw]

/-- A planned boot of a version of a channel hands over artifacts directly in the directory of the
image, each by a text that writes just its path. -/
theorem planned_inside_store {config : Config} {environment : Environment}
    (valid : config.validate = .ok ()) (stored : config.store? environment = some store)
    (made : make store runner vm places tree = .ok plan) (member : vm.channel ∈ store.channels)
    (spelt : (Version.parse? vm.version).isSome = true) :
    ∃ image kernel others, image = (store.root.child vm.channel).child vm.version ∧
      (store.root.child vm.channel).IsDirectChild store.root ∧
      image.IsDirectChild (store.root.child vm.channel) ∧
      store.artifacts = kernel :: others ∧
      plan.arguments =
        argumentsFor vm places (image.child kernel) (others.head?.map image.child) ∧
      ∀ artifact ∈ store.artifacts, (image.child artifact).IsDirectChild image ∧
        tree.isFile [] (image.child artifact) = true ∧
        Path.ofString (image.child artifact).display = image.child artifact := by
  have configured := Config.isConfigured_of_validate valid stored
  have root := Config.isText_root stored
  obtain ⟨complete, -, -, kernel, others, artifacts, rfl⟩ := make_eq_ok.mp made
  obtain ⟨version, spelt⟩ := Option.isSome_iff_exists.mp spelt
  have channelProper :=
    ImageStore.isProper_of_isChannelName (configured.channelNames vm.channel member)
  have versionProper :=
    (ImageStore.isProper_of_versionOf? (ImageStore.versionOf?_octetsOf spelt)).1
  refine ⟨_, kernel, others, rfl, Path.isDirectChild_child channelProper,
    Path.isDirectChild_child versionProper, artifacts, rfl, fun artifact listed => ?_⟩
  have file := List.all_eq_true.mp complete artifact listed
  obtain ⟨nonempty, whole⟩ :=
    ImageStore.whole_of_isPlainName (configured.artifactNames artifact listed)
  exact ⟨Path.isDirectChild_child (Tree.isProper_of_isFile nonempty whole file), file,
    (((root.child _).child _).child _).ofString_display⟩

/-- The plan for an image of a channel. -/
def planOfEach : BootPlan where
  program := Path.ofString "runner"
  arguments := ["--uuid", "random", "--mac", "", "--memory", "1024", "--cpus", "1",
    "--kernel", "/images/alpha/1.0.0/vmlinuz", "--initrd", "/images/alpha/1.0.0/initrd",
    "--cmdline", "console=ttyS0 uuid=random", "--tty", "/run/random/tty"]
  log := Path.ofString "/run/random/log"

theorem planned_inside_store_of_oneImageEach :
    make ImageStore.twoChannels (Path.ofString "runner") (Vm.draft "alpha" "1.0.0")
        (RunDirectory.ofUuid (Path.ofString "/run") "random") Daemon.oneImageEach =
      .ok planOfEach ∧
    ∃ image : Path, image = (ImageStore.twoChannels.root.child "alpha").child "1.0.0" ∧
      image.IsDirectChild (ImageStore.twoChannels.root.child "alpha") ∧
      ∀ artifact ∈ ["vmlinuz", "initrd"], (image.child artifact).IsDirectChild image ∧
        Path.ofString (image.child artifact).display = image.child artifact := by
  have made : make ImageStore.twoChannels (Path.ofString "runner") (Vm.draft "alpha" "1.0.0")
      (RunDirectory.ofUuid (Path.ofString "/run") "random") Daemon.oneImageEach =
        .ok planOfEach := by
    decide +kernel
  have valid : Daemon.twoChannelConfig.validate = .ok () := by decide +kernel
  obtain ⟨image, _, _, same, -, inside, -, -, artifacts⟩ :=
    planned_inside_store valid Daemon.store?_twoChannelConfig made (by decide) (by decide +kernel)
  exact ⟨made, image, same, inside, fun artifact listed =>
    ⟨(artifacts artifact listed).1, (artifacts artifact listed).2.2⟩⟩

/-! ### Plans from elsewhere -/

/-- A tree with artifacts outside of the store, and in a directory of the store that belongs to
no channel. -/
def strayArtifacts : Tree :=
  ImageStore.written
    [(["elsewhere"], .directory ⟨5, 0⟩), (["elsewhere", "1.0.0"], .directory ⟨5, 0⟩),
      (["elsewhere", "1.0.0", "vmlinuz"], .file []), (["elsewhere", "1.0.0", "initrd"], .file []),
      (["images"], .directory ⟨5, 0⟩), (["images", "alpha"], .directory ⟨5, 0⟩),
      (["images", "gamma"], .directory ⟨5, 0⟩), (["images", "gamma", "1.0.0"], .directory ⟨5, 0⟩),
      (["images", "gamma", "1.0.0", "vmlinuz"], .file []),
      (["images", "gamma", "1.0.0", "initrd"], .file [])]

/-- The kernel that a draft for a channel and a version boots from, if the boot is planned. -/
def strayKernel? (channel version : String) : Option String :=
  (make ImageStore.twoChannels (Path.ofString "runner") (Vm.draft channel version)
    (RunDirectory.ofUuid (Path.ofString "/run") "random") strayArtifacts).toOption.bind
    fun plan => plan.arguments[9]?

/-- Boots are planned from outside of the store and from what is no channel of it. -/
theorem plans_outside_store :
    strayKernel? "../elsewhere" "1.0.0" = some "/images/../elsewhere/1.0.0/vmlinuz" ∧
      strayArtifacts.canonical [] (Path.ofString "/images/../elsewhere/1.0.0/vmlinuz") =
        .ok (Path.ofString "/elsewhere/1.0.0/vmlinuz") ∧
      strayKernel? "alpha" "/elsewhere/1.0.0" = some "/elsewhere/1.0.0/vmlinuz" ∧
      strayKernel? "gamma" "1.0.0" = some "/images/gamma/1.0.0/vmlinuz" ∧
      "gamma" ∉ ImageStore.twoChannels.channels := by
  decide +kernel

end BootPlan

end VmFleet
