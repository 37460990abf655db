/-
This file proves that a log loses nothing and doubles nothing, whoever writes to it. Writers
and the handle share one slot, so an attachment shows to writers that were made before it, and
what a writer writes arrives in the file that was attached last. So the content of every file
follows from the history: it is what the file held at first, or nothing where no file was, and
then what was written while the file was attached, each time that it was.
-/

import VmFleet.Log.Journal
import VmFleet.Proofs.Files.Contents

namespace VmFleet.Log

/-- One thing that happened to a log: what was asked, what came of it, and the files it left. -/
structure Happening where
  request : Request
  reply : Reply
  left : Tree

namespace Happening

/-- The file that was attached: where the path that was asked for leads from then on. -/
def attached? (place : Location) (happening : Happening) : Option Location :=
  match happening.request, happening.reply with
  | .attach path, .attached => (happening.left.resolve ⟨true, false⟩ place path).toOption
  | _, _ => none

/-- What was written. -/
def written (happening : Happening) : List UInt8 :=
  match happening.request, happening.reply with
  | .write _ octets, .accepted _ => octets
  | _, _ => []

end Happening

/-- What was written while a file was the one that was attached last, where another one may have
been attached before. -/
def received (place file : Location) : Option Location → List Happening → List UInt8
  | _, [] => []
  | current, happening :: later =>
    let latest := (happening.attached? place).or current
    (if latest = some file then happening.written else []) ++ received place file latest later

namespace Journal

/-- What happens when something is asked. -/
def happened (journal : Journal) (request : Request) : Happening :=
  ⟨request, (journal.serve request).2, (journal.serve request).1.tree⟩

/-- What happens when one thing is asked after the other. -/
def happenings : Journal → List Request → List Happening
  | _, [] => []
  | journal, request :: requests =>
    journal.happened request :: happenings (journal.serve request).1 requests

/-- The slot is shared, and what is attached stands. -/
structure IsShared (journal : Journal) : Prop where
  handle : journal.handle < journal.slots.length
  writers : ∀ slot ∈ journal.writers, slot = journal.handle
  stands : ∀ location, journal.outlet.file = some location →
    journal.tree.thingAt? location ≠ none

variable {journal after : Journal} {place file : Location} {requests : List Request}

theorem isShared_start (tree : Tree) (place : Location) : (start tree place).IsShared where
  handle := Nat.zero_lt_one
  writers := nofun
  stands := nofun

/-- Every writer that was made writes to what the handle attached last. -/
theorem IsShared.outletOf?_eq (shared : journal.IsShared) (writer : Nat) :
    journal.outletOf? writer =
      if writer < journal.writers.length then some journal.outlet else none := by
  unfold outletOf? outlet
  split
  · rename_i made
    rw [List.getElem?_eq_getElem made, Option.bind_some,
      shared.writers _ (List.getElem_mem made), List.getElem?_eq_getElem shared.handle]
    rfl
  · rename_i unmade
    rw [List.getElem?_eq_none (Nat.le_of_not_lt unmade), Option.bind_none]

theorem outlet_set (tree : Tree) (outlet : Outlet) (handle : journal.handle < journal.slots.length) :
    { journal with tree, slots := journal.slots.set journal.handle outlet : Journal }.outlet =
      outlet := by
  unfold Journal.outlet
  rw [List.getElem?_set_self handle]
  rfl

end Journal

/-! ### What one attachment does -/

/-- What a file holds in the end: what it held at first and then more, or where nothing stood just
that, if it was attached. -/
def Holds (tree : Tree) (file : Location) (attached : Prop) (more octets : List UInt8) : Prop :=
  (∃ first, tree.octetsAt? file = some first ∧ first ++ more = octets) ∨
    tree.thingAt? file = none ∧ attached ∧ more = octets

/-- How the files change where one is attached: directories may be made, and the file stood and
is no directory, or it is new and empty. -/
structure Attaches (before after : Tree) (location : Location) : Prop where
  elsewhere : ∀ other, other ≠ location → after.thingAt? other = before.thingAt? other ∨
    before.thingAt? other = none ∧ after.thingAt? other = some (.directory default)
  here : (∃ node, before.thingAt? location = some node ∧ after.thingAt? location = some node ∧
      ∀ at', node ≠ .directory at') ∨
    before.thingAt? location = none ∧ after.thingAt? location = some (.file [])

theorem Attaches.stands {before after : Tree} {location : Location}
    (attaches : Attaches before after location) : after.thingAt? location ≠ none := by
  rcases attaches.here with ⟨node, -, now, -⟩ | ⟨-, now⟩ <;>
  · rw [now]
    exact nofun

/-- What an attachment leaves in the files. -/
theorem Attaches.octetsAt? {before after : Tree} {location : Location}
    (attaches : Attaches before after location) (file : Location) (octets : List UInt8) :
    after.octetsAt? file = some octets ↔ Holds before file (location = file) [] octets := by
  unfold Holds
  by_cases same : file = location
  · subst same
    rcases attaches.here with ⟨node, stood, stands, -⟩ | ⟨nothing, new⟩
    · simp [Tree.octetsAt?_eq_some, stood, stands]
    · simp [Tree.octetsAt?_eq_some, nothing, new]
  · rcases attaches.elsewhere file same with kept | ⟨nothing, directory⟩
    · simp [Tree.octetsAt?_eq_some, kept, Ne.symm same]
    · simp [Tree.octetsAt?_eq_some, nothing, directory, Ne.symm same]

/-- A file that is opened after only directories were made is attached. -/
theorem attaches_of_gainsDirectories {before middle after : Tree} {location : Location}
    (gains : before.GainsDirectories middle)
    (found : after = middle ∧
        (∃ node, middle.thingAt? location = some node ∧ ∀ at', node ≠ .directory at') ∨
      middle.thingAt? location = none ∧ after = middle.add location (.file [])) :
    Attaches before after location := by
  rcases found with ⟨rfl, node, stands, free⟩ | ⟨nothing, rfl⟩
  · refine ⟨fun other _ => gains other, .inl ⟨node, ?_, stands, free⟩⟩
    rcases gains location with same | ⟨-, directory⟩
    · rw [← same, stands]
    · rw [stands] at directory
      exact absurd (Option.some.inj directory) (free default)
  · refine ⟨fun other differs => ?_, .inr ⟨?_, ?_⟩⟩
    · rw [Tree.thingAt?_add, if_neg (Ne.symm differs), Option.or_none]
      exact gains other
    · rcases gains location with same | ⟨-, directory⟩
      · rw [← same, nothing]
      · rw [nothing] at directory
        cases directory
    · rw [Tree.thingAt?_add, nothing, if_pos rfl]
      rfl

/-- An attachment is refused and only directories are new, or the path leads to the file that is
attached from then on. -/
def AttachmentEnds (place : Location) (path : Path) (before : Tree) :
    Except Cause Outlet × Tree → Prop
  | (.error _, after) => before.GainsDirectories after
  | (.ok outlet, after) => ∃ location, outlet = ⟨some location⟩ ∧
      after.resolve ⟨true, false⟩ place path = .ok location ∧ Attaches before after location

/-- The file is opened after the directories above it were made. -/
theorem attachmentEnds_open {before middle : Tree} (gains : before.GainsDirectories middle)
    (place : Location) (path : Path) :
    AttachmentEnds place path before ((TreeRequest.openToAppend place path >>= fun location =>
      pure (⟨some location⟩ : Outlet)).run middle) := by
  rw [TreeRequest.run_bind]
  rcases TreeRequest.run_openToAppend place path middle with
    ⟨cause, refused⟩ | ⟨location, left, opened, leads, found⟩
  · rw [refused]
    exact gains
  · rw [opened]
    exact ⟨location, rfl, leads, attaches_of_gainsDirectories gains found⟩

theorem Outlet.attachmentEnds (place : Location) (path : Path) (tree : Tree) :
    AttachmentEnds place path tree ((attach place path).run tree) := by
  unfold attach
  cases path.parent? with
  | none => exact attachmentEnds_open tree.gainsDirectories_self place path
  | some directory =>
    have gains := TreeRequest.gainsDirectories_makePath place directory tree
    simp only
    rw [TreeRequest.run_bind]
    rcases made : (TreeRequest.makePath place directory).run tree with ⟨cause | _, middle⟩
    · rw [made] at gains
      exact gains
    · rw [made] at gains
      exact attachmentEnds_open gains place path

/-- What is written is accepted whole, whether it arrives anywhere or not. -/
theorem Outlet.run_write (outlet : Outlet) (octets : List UInt8) (tree : Tree) :
    (outlet.write octets).run tree =
      (.ok octets.length,
        match outlet.file with
        | some location => ((TreeRequest.append location octets).run tree).2
        | none => tree) := by
  unfold write
  cases outlet.file <;> rfl

namespace Journal

/-! ### What one request does -/

variable {journal after : Journal} {place file : Location} {requests : List Request}

/-- The part of what was written that arrived in a file. -/
def arrived (file : Location) (latest : Option Location) (happening : Happening) : List UInt8 :=
  if latest = some file then happening.written else []

/-- What one request does to the log and to every file. -/
structure Follows (before : Journal) (happening : Happening) (after : Journal) : Prop where
  place : after.place = before.place
  shared : after.IsShared
  /-- What is attached is what this request attached, or what was attached before. -/
  outlet : after.outlet.file = (happening.attached? before.place).or before.outlet.file
  /-- What was written arrived in what is attached, and an attached file is there. -/
  content : ∀ file octets, after.tree.octetsAt? file = some octets ↔
    Holds before.tree file (happening.attached? before.place = some file)
      (arrived file after.outlet.file happening) octets
  /-- What stands stays, and where nothing stood only a directory or what is attached is new. -/
  things : ∀ file, after.tree.thingAt? file = none ∨
    after.tree.thingAt? file = some (.directory default) ∨
    happening.attached? before.place = some file ∨ before.tree.thingAt? file ≠ none
  stays : ∀ file, after.tree.thingAt? file = none → before.tree.thingAt? file = none
  /-- Where a directory stands nothing is attached. -/
  directory : ∀ file, before.tree.thingAt? file = some (.directory default) →
    after.tree.thingAt? file = some (.directory default) ∧
      happening.attached? before.place ≠ some file

/-- A request that attaches nothing and of which nothing arrives leaves the files as they were, but
for directories that are made. -/
theorem follows_of_gainsDirectories {before : Journal} {happening : Happening}
    (place : after.place = before.place) (shared : after.IsShared)
    (outlet : after.outlet = before.outlet) (unattached : happening.attached? before.place = none)
    (idle : ∀ file, arrived file after.outlet.file happening = [])
    (gains : before.tree.GainsDirectories after.tree) : Follows before happening after where
  place := place
  shared := shared
  outlet := by rw [unattached, Option.none_or, outlet]
  content file octets := by
    rw [gains.octetsAt?, idle, Holds, unattached]
    simp
  things file := by
    rcases gains file with same | ⟨-, directory⟩
    · rw [same]
      exact (em _).imp_right fun stands => .inr (.inr stands)
    · exact .inr (.inl directory)
  stays file nothing := by
    rcases gains file with same | ⟨nothing, -⟩
    · rw [← same, nothing]
    · exact nothing
  directory file stands := by
    refine ⟨?_, by rw [unattached]; exact nofun⟩
    rcases gains file with same | ⟨nothing, -⟩
    · rw [same, stands]
    · rw [nothing] at stands
      cases stands

/-- What comes of an attachment. -/
theorem serve_attach (journal : Journal) (path : Path) :
    (∃ cause left, journal.serve (.attach path) = ({ journal with tree := left }, .refused cause) ∧
      journal.tree.GainsDirectories left) ∨
    ∃ location left, journal.serve (.attach path) =
        ({ journal with
            tree := left, slots := journal.slots.set journal.handle ⟨some location⟩ }, .attached) ∧
      left.resolve ⟨true, false⟩ journal.place path = .ok location ∧
      Attaches journal.tree left location := by
  have ends := Outlet.attachmentEnds journal.place path journal.tree
  unfold serve
  simp only
  generalize (Outlet.attach journal.place path).run journal.tree = outcome at ends ⊢
  rcases outcome with ⟨cause | outlet, left⟩
  · exact .inl ⟨cause, left, rfl, ends⟩
  · obtain ⟨location, rfl, leads, attaches⟩ := ends
    exact .inr ⟨location, left, rfl, leads, attaches⟩

/-- A request that attaches a file and of which nothing arrives adds that file at most, and
directories above it. -/
theorem follows_of_attaches (shared : journal.IsShared) {left : Tree} {location : Location}
    (attaches : Attaches journal.tree left location) {happening : Happening}
    (attached : happening.attached? journal.place = some location)
    (silent : happening.written = []) :
    Follows journal happening
      { journal with
        tree := left, slots := journal.slots.set journal.handle ⟨some location⟩ } where
  place := rfl
  shared := by
    refine ⟨?_, shared.writers, fun file current => ?_⟩
    · rw [List.length_set]
      exact shared.handle
    · rw [outlet_set left ⟨some location⟩ shared.handle] at current
      exact Option.some.inj current ▸ attaches.stands
  outlet := by
    rw [outlet_set left ⟨some location⟩ shared.handle, attached]
    rfl
  content file octets := by
    rw [attaches.octetsAt?, attached, Option.some_inj, arrived, silent, ite_self]
  things file := by
    by_cases same : file = location
    · exact .inr (.inr (.inl (same ▸ attached)))
    · rcases attaches.elsewhere file same with kept | ⟨-, directory⟩
      · rw [kept]
        exact (em _).imp_right fun stands => .inr (.inr stands)
      · exact .inr (.inl directory)
  stays file nothing := by
    by_cases same : file = location
    · exact absurd nothing (same ▸ attaches.stands)
    · rcases attaches.elsewhere file same with kept | ⟨nothing, -⟩
      · rw [← kept, nothing]
      · exact nothing
  directory file stands := by
    have differs : file ≠ location := by
      rintro rfl
      rcases attaches.here with ⟨node, stood, -, free⟩ | ⟨nothing, -⟩
      · rw [stood] at stands
        exact free default (Option.some.inj stands)
      · rw [nothing] at stands
        cases stands
    refine ⟨?_, fun same => differs (Option.some.inj (attached.symm.trans same)).symm⟩
    rcases attaches.elsewhere file differs with kept | ⟨nothing, -⟩
    · rw [kept, stands]
    · rw [nothing] at stands
      cases stands

theorem follows_attach (shared : journal.IsShared) (path : Path) :
    Follows journal (journal.happened (.attach path)) (journal.serve (.attach path)).1 := by
  rcases journal.serve_attach path with
    ⟨cause, left, served, gains⟩ | ⟨location, left, served, leads, attaches⟩
  · rw [happened, served]
    refine follows_of_gainsDirectories rfl ⟨shared.handle, shared.writers, fun file current => ?_⟩
      rfl rfl (fun file => ite_self _) gains
    have stands := shared.stands file current
    rcases gains file with same | ⟨nothing, -⟩
    · exact same ▸ stands
    · exact absurd nothing stands
  · rw [happened, served]
    refine follows_of_attaches shared attaches ?_ rfl
    unfold Happening.attached?
    simp only
    rw [leads]
    rfl

/-- A request that changes neither the files nor what is attached. -/
theorem follows_self (shared : after.IsShared) {happening : Happening}
    (tree : after.tree = journal.tree) (place : after.place = journal.place)
    (outlet : after.outlet = journal.outlet) (unattached : happening.attached? journal.place = none)
    (idle : ∀ file, arrived file after.outlet.file happening = []) :
    Follows journal happening after :=
  follows_of_gainsDirectories place shared outlet unattached idle
    (tree ▸ journal.tree.gainsDirectories_self)

/-- What comes of writing: what a writer that was made writes is accepted whole. -/
theorem IsShared.serve_write (shared : journal.IsShared) (writer : Nat) (octets : List UInt8) :
    journal.serve (.write writer octets) =
      if writer < journal.writers.length then
        ({ journal with
            tree := match journal.outlet.file with
              | some location => ((TreeRequest.append location octets).run journal.tree).2
              | none => journal.tree },
          .accepted octets.length)
      else (journal, .writerUnknown) := by
  unfold serve
  simp only
  rw [shared.outletOf?_eq]
  by_cases made : writer < journal.writers.length
  · rw [if_pos made, if_pos made]
    simp only [Outlet.run_write]
  · rw [if_neg made, if_neg made]

/-- What is written arrives in the file that is attached. -/
theorem follows_of_append (shared : journal.IsShared) {location : Location}
    (current : journal.outlet.file = some location) (octets : List UInt8) {happening : Happening}
    (written : happening.written = octets)
    (unattached : happening.attached? journal.place = none) :
    Follows journal happening
      { journal with tree := ((TreeRequest.append location octets).run journal.tree).2 } where
  place := rfl
  shared := ⟨shared.handle, shared.writers, fun file attached gone =>
    shared.stands file attached (Tree.thingAt?_append_eq_none.mp gone)⟩
  outlet := by
    rw [unattached, Option.none_or]
    rfl
  content file held := by
    have arrives : arrived file journal.outlet.file happening =
        if location = file then octets else [] := by
      unfold arrived
      rw [current, written]
      simp only [Option.some_inj]
    show _ ↔ Holds _ _ _ (arrived file journal.outlet.file happening) held
    rw [arrives, unattached, Tree.octetsAt?_append, Option.map_eq_some_iff]
    refine ⟨.inl, fun holds => holds.resolve_right ?_⟩
    rintro ⟨-, attached, -⟩
    cases attached
  things file := by
    simp only [Tree.thingAt?_append_eq_none]
    exact (em _).imp_right fun stands => .inr (.inr stands)
  stays file := Tree.thingAt?_append_eq_none.mp
  directory file stands := by
    refine ⟨?_, by rw [unattached]; exact nofun⟩
    rw [← stands]
    refine Tree.thingAt?_append_of_octetsAt?_eq_none file octets ?_
    cases held : journal.tree.octetsAt? file with
    | none => rfl
    | some content =>
      rw [Tree.octetsAt?_eq_some.mp held] at stands
      cases stands

theorem follows_write (shared : journal.IsShared) (writer : Nat) (octets : List UInt8) :
    Follows journal (journal.happened (.write writer octets))
      (journal.serve (.write writer octets)).1 := by
  rw [happened, shared.serve_write]
  by_cases made : writer < journal.writers.length
  case neg =>
    rw [if_neg made]
    exact follows_self shared rfl rfl rfl rfl fun _ => ite_self _
  rw [if_pos made]
  cases current : journal.outlet.file with
  | none =>
    refine follows_self shared rfl rfl rfl rfl fun file => ?_
    have unattached : journal.outlet.file ≠ some file := by
      rw [current]
      exact nofun
    exact if_neg unattached
  | some location => exact follows_of_append shared current octets rfl rfl

/-- What any request does. -/
theorem follows_serve (shared : journal.IsShared) (request : Request) :
    Follows journal (journal.happened request) (journal.serve request).1 := by
  cases request with
  | makeWriter =>
    have more : ({ journal with writers := journal.writers ++ [journal.handle] } : Journal).IsShared :=
      ⟨shared.handle, fun slot made => (List.mem_append.mp made).elim (shared.writers slot)
        List.mem_singleton.mp, shared.stands⟩
    exact follows_self more rfl rfl rfl rfl fun _ => ite_self _
  | attach path => exact follows_attach shared path
  | write writer octets => exact follows_write shared writer octets
  | flush writer =>
    have idle : (journal.serve (.flush writer)).1 = journal := by
      unfold serve
      simp only
      cases journal.outletOf? writer <;> rfl
    rw [happened, idle]
    exact follows_self shared rfl rfl rfl rfl fun _ => ite_self _

/-! ### What a row of requests does -/

/-- The file that was attached last. -/
def latest (place : Location) (current : Option Location) (history : List Happening) :
    Option Location :=
  history.foldl (fun current happening => (happening.attached? place).or current) current

theorem serveAll_cons (request : Request) :
    journal.serveAll (request :: requests) = (journal.serve request).1.serveAll requests := rfl

theorem IsShared.serveAll (shared : journal.IsShared) (requests : List Request) :
    (journal.serveAll requests).IsShared ∧ (journal.serveAll requests).place = journal.place ∧
      (journal.serveAll requests).outlet.file =
        latest journal.place journal.outlet.file (journal.happenings requests) := by
  induction requests generalizing journal with
  | nil => exact ⟨shared, rfl, rfl⟩
  | cons request requests inductionHypothesis =>
    have follows := follows_serve shared request
    obtain ⟨shared, place, outlet⟩ := inductionHypothesis follows.shared
    refine ⟨shared, place.trans follows.place, outlet.trans ?_⟩
    rw [follows.place, follows.outlet]
    rfl

/-- Where a directory stands nothing is ever attached. -/
theorem not_attached_of_directory (shared : journal.IsShared) (requests : List Request)
    (directory : journal.tree.thingAt? file = some (.directory default)) :
    ∀ happening ∈ journal.happenings requests, happening.attached? journal.place ≠ some file := by
  induction requests generalizing journal with
  | nil => exact nofun
  | cons request requests inductionHypothesis =>
    have follows := follows_serve shared request
    obtain ⟨remains, unattached⟩ := follows.directory file directory
    have later := inductionHypothesis follows.shared remains
    rw [follows.place] at later
    exact List.forall_mem_cons.mpr ⟨unattached, later⟩

/-- What a file holds after something happened and then more. -/
theorem holds_append {before middle : Tree} {now later : Prop} {part more : List UInt8}
    (content : ∀ octets, middle.octetsAt? file = some octets ↔ Holds before file now part octets)
    (stays : middle.thingAt? file = none → before.thingAt? file = none)
    (silent : middle.thingAt? file = none → part = [])
    (free : later → before.thingAt? file = none → ¬ now → middle.thingAt? file = none)
    (octets : List UInt8) :
    Holds middle file later more octets ↔ Holds before file (now ∨ later) (part ++ more) octets := by
  constructor
  · rintro (⟨first, held, rfl⟩ | ⟨nothing, attached, rfl⟩)
    · rcases (content first).mp held with ⟨start, stood, rfl⟩ | ⟨nothing, new, rfl⟩
      · exact .inl ⟨start, stood, (List.append_assoc _ _ _).symm⟩
      · exact .inr ⟨nothing, .inl new, rfl⟩
    · exact .inr ⟨stays nothing, .inr attached, by rw [silent nothing, List.nil_append]⟩
  · rintro (⟨start, stood, rfl⟩ | ⟨nothing, attached, rfl⟩)
    · exact .inl ⟨start ++ part, (content _).mpr (.inl ⟨start, stood, rfl⟩), List.append_assoc _ _ _⟩
    · by_cases new : now
      · exact .inl ⟨part, (content _).mpr (.inr ⟨nothing, new, rfl⟩), rfl⟩
      · have attached := attached.resolve_left new
        have unmade := free attached nothing new
        exact .inr ⟨unmade, attached, by rw [silent unmade, List.nil_append]⟩

/-- The content of every file follows from the history. -/
theorem octetsAt?_serveAll (shared : journal.IsShared) (requests : List Request) (file : Location)
    (octets : List UInt8) :
    (journal.serveAll requests).tree.octetsAt? file = some octets ↔
      Holds journal.tree file
        (∃ happening ∈ journal.happenings requests,
          happening.attached? journal.place = some file)
        (received journal.place file journal.outlet.file (journal.happenings requests)) octets := by
  induction requests generalizing journal with
  | nil =>
    simp [Holds, happenings, received, serveAll]
  | cons request requests inductionHypothesis =>
    have follows := follows_serve shared request
    have later := inductionHypothesis follows.shared
    have never : (journal.serve request).1.tree.thingAt? file = some (.directory default) → _ :=
      not_attached_of_directory follows.shared requests
    rw [follows.place] at later never
    rw [serveAll_cons, later, happenings, received]
    simp only [List.mem_cons, exists_eq_or_imp]
    rw [← follows.outlet]
    refine holds_append (follows.content file) (follows.stays file) (fun nothing => ?_)
      (fun attached nothing new => ?_) octets
    · exact if_neg fun current => follows.shared.stands file current nothing
    · rcases follows.things file with unmade | made | now | stood
      · exact unmade
      · obtain ⟨happening, member, attached⟩ := attached
        exact absurd attached (never made happening member)
      · exact absurd now new
      · exact absurd nothing stood

/-- To flush changes nothing. -/
theorem serve_flush (journal : Journal) (writer : Nat) :
    journal.serve (.flush writer) =
      (journal, if (journal.outletOf? writer).isSome then .flushed else .writerUnknown) := by
  unfold serve
  simp only
  cases journal.outletOf? writer <;> rfl

/-- Writers are made one by one and stay. -/
theorem IsShared.length_writers (shared : journal.IsShared) (requests : List Request) :
    (journal.serveAll requests).writers.length =
      journal.writers.length + requests.count .makeWriter := by
  induction requests generalizing journal with
  | nil => rfl
  | cons request requests inductionHypothesis =>
    rw [serveAll_cons, inductionHypothesis (follows_serve shared request).shared, List.count_cons,
      Nat.add_comm (requests.count _), ← Nat.add_assoc]
    congr 1
    cases request with
    | makeWriter => exact List.length_append
    | attach path =>
      rcases journal.serve_attach path with ⟨_, _, served, -⟩ | ⟨_, _, served, -⟩ <;>
      · rw [served]
        rfl
    | write writer octets =>
      rw [shared.serve_write]
      split <;> rfl
    | flush writer =>
      rw [serve_flush]
      rfl

/-- Whatever was attached, its path led to it. -/
theorem isSome_attached?_happened (shared : journal.IsShared) (request : Request) :
    ((journal.happened request).attached? journal.place).isSome = true ↔
      (journal.happened request).reply = .attached := by
  cases request with
  | makeWriter => exact iff_of_false nofun nofun
  | attach path =>
    rcases journal.serve_attach path with ⟨_, _, served, -⟩ | ⟨file, left, served, leads, -⟩
    · rw [happened, served]
      exact iff_of_false nofun nofun
    · rw [happened, served]
      unfold Happening.attached?
      simp only
      rw [leads]
      exact iff_of_true rfl trivial
  | write writer octets =>
    rw [happened, shared.serve_write]
    split <;> exact iff_of_false nofun nofun
  | flush writer =>
    rw [happened, serve_flush]
    split <;> exact iff_of_false nofun nofun

theorem isSome_attached? (shared : journal.IsShared) {happening : Happening}
    (among : happening ∈ journal.happenings requests) :
    (happening.attached? journal.place).isSome = true ↔ happening.reply = .attached := by
  induction requests generalizing journal with
  | nil => cases among
  | cons request requests inductionHypothesis =>
    rcases List.mem_cons.mp among with rfl | later
    · exact isSome_attached?_happened shared request
    · have follows := follows_serve shared request
      rw [← follows.place]
      exact inductionHypothesis follows.shared later

/-- Something is attached in the end if it was at first or came to be. -/
theorem isSome_latest (place : Location) (current : Option Location) (history : List Happening) :
    (latest place current history).isSome = true ↔ current.isSome = true ∨
      ∃ happening ∈ history, (happening.attached? place).isSome = true := by
  induction history generalizing current with
  | nil => simp [latest]
  | cons happening history inductionHypothesis =>
    have rest := inductionHypothesis ((happening.attached? place).or current)
    rw [latest, List.foldl_cons]
    refine rest.trans ?_
    simp only [List.mem_cons, exists_eq_or_imp, Option.isSome_or, Bool.or_eq_true]
    tauto

/-- Nothing arrives in a file that is not attached. -/
theorem received_of_unattached {file : Location} {current : Option Location}
    {history : List Happening} (idle : current ≠ some file)
    (never : ∀ happening ∈ history, happening.attached? place = none) :
    received place file current history = [] := by
  induction history with
  | nil => rfl
  | cons happening history inductionHypothesis =>
    obtain ⟨now, later⟩ := List.forall_mem_cons.mp never
    rw [received, now, Option.none_or, if_neg idle]
    exact inductionHypothesis later

/-! ### What a log promises -/

/-- What a log promises that began with these files and of which all this was asked: no matter
which writers wrote and when they were made, every file holds what it should. -/
structure IsFaithful (tree : Tree) (place : Location) (requests : List Request)
    (history : List Happening) (journal : Journal) : Prop where
  /-- A file that was there holds what it held, and then what was written while it was attached. -/
  kept : ∀ file octets, tree.octetsAt? file = some octets →
    journal.tree.octetsAt? file = some (octets ++ received place file none history)
  /-- Any other file was made where nothing stood by attaching it, and holds what was written
  while it was attached. -/
  made : ∀ file octets, tree.octetsAt? file = none →
    (journal.tree.octetsAt? file = some octets ↔ tree.find? file = none ∧
      (∃ happening ∈ history, happening.attached? place = some file) ∧
      octets = received place file none history)
  /-- Whatever is written through a writer that was made is accepted, attached or not. -/
  accepts : ∀ writer octets, writer < requests.count .makeWriter →
    (journal.serve (.write writer octets)).2 = .accepted octets.length
  flushes : ∀ writer, writer < requests.count .makeWriter →
    journal.serve (.flush writer) = (journal, .flushed)
  /-- As long as nothing was attached, no file has changed. -/
  unattached : (∀ happening ∈ history, happening.reply ≠ .attached) →
    ∀ file, journal.tree.octetsAt? file = tree.octetsAt? file
  /-- What is attached is what was attached last. -/
  current : journal.outlet.file = latest place none history
  /-- An attachment that goes through attaches what its path leads to. -/
  attaches : ∀ path, (journal.serve (.attach path)).2 = .attached →
    ∃ file, (journal.serve (.attach path)).1.tree.resolve ⟨true, false⟩ place path = .ok file ∧
      (journal.serve (.attach path)).1.outlet.file = some file
  /-- An attachment that is refused changes neither what is attached nor what any file holds. -/
  refuses : ∀ path cause, (journal.serve (.attach path)).2 = .refused cause →
    (journal.serve (.attach path)).1.outlet = journal.outlet ∧
      ∀ file, (journal.serve (.attach path)).1.tree.octetsAt? file = journal.tree.octetsAt? file
  /-- The log is active from the first attachment that goes through. -/
  active : journal.outlet.isActive = true ↔ ∃ happening ∈ history, happening.reply = .attached

/-- A log loses nothing and doubles nothing. -/
theorem isFaithful_serveAll (tree : Tree) (place : Location) (requests : List Request) :
    IsFaithful tree place requests ((start tree place).happenings requests)
      ((start tree place).serveAll requests) := by
  have fresh := isShared_start tree place
  obtain ⟨shared, stays, current⟩ := fresh.serveAll requests
  have content : ∀ file octets, ((start tree place).serveAll requests).tree.octetsAt? file =
      some octets ↔ Holds tree file
        (∃ happening ∈ (start tree place).happenings requests,
          happening.attached? place = some file)
        (received place file none ((start tree place).happenings requests)) octets :=
    octetsAt?_serveAll fresh requests
  have writers : _ = 0 + _ := fresh.length_writers requests
  rw [Nat.zero_add] at writers
  have replies : ∀ happening ∈ (start tree place).happenings requests,
      (happening.attached? place).isSome = true ↔ happening.reply = .attached :=
    fun _ among => isSome_attached? fresh among
  refine ⟨fun file octets held => ?_, fun file octets free => ?_, fun writer octets made => ?_,
    fun writer made => ?_, fun never file => ?_, current, fun path attached => ?_,
    fun path cause refused => ?_, ?_⟩
  · exact (content file _).mpr (.inl ⟨octets, held, rfl⟩)
  · refine (content file octets).trans ⟨?_, ?_⟩
    · rintro (⟨first, held, -⟩ | ⟨nothing, attached, same⟩)
      · exact absurd (free.symm.trans held) nofun
      · exact ⟨Tree.thingAt?_eq_none.mp nothing, attached, same.symm⟩
    · rintro ⟨nothing, attached, same⟩
      exact .inr ⟨Tree.thingAt?_eq_none.mpr nothing, attached, same.symm⟩
  · rw [shared.serve_write, writers, if_pos made]
  · rw [serve_flush, shared.outletOf?_eq, writers, if_pos made]
    rfl
  · have unattached : ∀ happening ∈ (start tree place).happenings requests,
        happening.attached? place = none := fun happening among =>
      Option.not_isSome_iff_eq_none.mp fun attached =>
        never happening among ((replies happening among).mp attached)
    refine Option.ext fun octets => (content file octets).trans ?_
    rw [received_of_unattached (by exact nofun) unattached]
    constructor
    · rintro (⟨first, held, rfl⟩ | ⟨-, ⟨happening, among, attached⟩, -⟩)
      · rw [List.append_nil]
        exact held
      · exact absurd ((unattached happening among).symm.trans attached) nofun
    · exact fun held => .inl ⟨octets, held, List.append_nil octets⟩
  · rcases serve_attach ((start tree place).serveAll requests) path with
      ⟨_, _, served, -⟩ | ⟨file, left, served, leads, -⟩
    · rw [served] at attached
      cases attached
    · rw [served]
      exact ⟨file, stays ▸ leads, congrArg Outlet.file (outlet_set left _ shared.handle)⟩
  · rcases serve_attach ((start tree place).serveAll requests) path with
      ⟨_, _, served, gains⟩ | ⟨_, _, served, -⟩
    · rw [served]
      exact ⟨rfl, gains.octetsAt?⟩
    · rw [served] at refused
      cases refused
  · rw [Outlet.isActive, current, isSome_latest]
    refine (or_iff_right nofun).trans (exists_congr fun happening => ?_)
    exact and_congr_right (replies happening)

/-- A writer that was made first writes to whatever is attached, and a file that is attached again
is written to at its end. -/
example :
    let log := (start (.bare default) []).serveAll
      [.makeWriter, .write 0 [1], .attach (.ofString "/run/a"), .write 0 [2],
        .attach (.ofString "/run/b"), .attach (.ofString "/run"), .write 0 [3],
        .attach (.ofString "/run/a"), .write 0 [4]]
    log.tree.octetsAt? [[0x61], [0x72, 0x75, 0x6e]] = some [2, 4] ∧
      log.tree.octetsAt? [[0x62], [0x72, 0x75, 0x6e]] = some [3] := by
  decide +kernel

end Journal

end VmFleet.Log
