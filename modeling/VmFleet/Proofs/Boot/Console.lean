/-
This file says where the console of a machine lies and what clearing it takes away. The
console is named by the identity of its machine, so two machines have their consoles at
different places, unless a link under the name of one leads to the directory of the
other. Where no such link stands, preparing a machine and clearing its console leave the
console of every other identity alone.
-/

import VmFleet.Boot.RunDirectory
import VmFleet.Proofs.Files.Deletion
import VmFleet.Proofs.Files.Persistence
import VmFleet.Proofs.Identity.Uuid

namespace VmFleet

open VmFleet.Text

namespace Tree

/-- No link stands under the name of a console or of the directory of a machine, and the system
holds on to no console. -/
structure IsPlainlyNamed (tree : Tree) : Prop where
  links : ∀ name outer target, tree.kindAt? (name :: outer) = some (.link target) →
    name ≠ octetsOf "tty" ∧ ∀ identity : Uuid, name ≠ octetsOf identity.canonical
  yields : ∀ outer, tree.heldBy? (octetsOf "tty" :: outer) = none

variable {tree before middle after : Tree} {places : List Location} {root : Path}
  {identity other : Uuid} {place target : Location}

theorem Spares.isPlainlyNamed (spares : Spares places before after) (plain : before.IsPlainlyNamed) :
    after.IsPlainlyNamed where
  links name outer target link := plain.links name outer target (spares.links _ _ link)
  yields outer := by
    unfold heldBy?
    rw [spares.held]
    exact plain.yields outer

/-- A tree without links has none under any name. -/
theorem isPlainlyNamed_of_linkless (linkless : ∀ row ∈ tree.nodes, ∀ goal, row.2 ≠ .link goal)
    (none : tree.held = []) : tree.IsPlainlyNamed := by
  refine ⟨fun name outer goal link => ?_, fun outer => by rw [heldBy?, none]; rfl⟩
  rw [kindAt?_eq_link, find?_of_ne_nil (List.cons_ne_nil _ _)] at link
  obtain ⟨row, found, same⟩ := Option.map_eq_some_iff.mp link
  exact absurd same (linkless row (List.mem_of_find?_eq_some found) goal)

theorem isProper_tty : Path.IsProper (octetsOf "tty") := by
  refine ⟨?_, ?_, ?_, ?_⟩ <;> decide +kernel

/-- The console of a machine lies in its directory, and that one right under the root. -/
theorem IsPlainlyNamed.console_eq (plain : tree.IsPlainlyNamed)
    (leads : tree.resolve ⟨false, false⟩ [] (Layout.console root identity.canonical) = .ok target) :
    ∃ outer, tree.namesLead [] root = .ok outer ∧
      target = octetsOf "tty" :: octetsOf identity.canonical :: outer := by
  have name := Uuid.isProper_canonical identity
  obtain ⟨⟨accepted, -⟩, directory, inner, -, rfl, -⟩ := (resolve_join_eq_ok isProper_tty).mp leads
  -- the directory is looked at like the console, since no link stands under its name
  have accepted := accepts_of_join isProper_tty.whole
    (Path.octets_join_ne_nil name.nonempty name.whole) accepted
  have followed := (namesLead_join tree [] name.nonempty name.whole accepted).symm.trans inner
  have free : ∀ goal, tree.entry [] (root.join ⟨octetsOf identity.canonical⟩) ≠ .ok (.link goal) := by
    intro goal link
    obtain ⟨-, outer, -, -, found⟩ := (entry_join_eq_ok name).mp link
    exact (plain.links _ _ goal (kindAt?_eq_link.mpr found)).2 identity rfl
  rw [resolve_follow free] at followed
  obtain ⟨-, outer, above, -, rfl, -⟩ := (resolve_join_eq_ok name).mp followed
  exact ⟨outer, above, rfl⟩

/-- Consoles of two identities lie apart. -/
theorem IsPlainlyNamed.console_apart (plain : tree.IsPlainlyNamed)
    (leads : tree.resolve ⟨false, false⟩ [] (Layout.console root identity.canonical) = .ok target)
    (leads' : tree.resolve ⟨false, false⟩ [] (Layout.console root other.canonical) = .ok place)
    (apart : other ≠ identity) : isUnder [place] target = false := by
  obtain ⟨outer, at', rfl⟩ := plain.console_eq leads
  obtain ⟨outer', at'', rfl⟩ := plain.console_eq leads'
  obtain rfl := Except.ok.inj (at'.symm.trans at'')
  rw [Bool.eq_false_iff]
  intro under
  obtain ⟨_, member, below⟩ := isUnder_iff.mp under
  obtain rfl := List.mem_singleton.mp member
  have same := below.eq_of_length rfl
  injection same with _ same
  injection same with same _
  exact apart (Uuid.canonical_injective (octetsOf_injective same))

/-- A change that spares everything but the console of an identity, once what was missing has
been made. -/
def ClearsConsole (root : Path) (uuid : String) (before after : Tree) : Prop :=
  ∃ middle places, Spares [] before middle ∧ Spares places middle after ∧
    ∀ place ∈ places, middle.resolve ⟨false, false⟩ [] (Layout.console root uuid) = .ok place

theorem ClearsConsole.isPlainlyNamed {uuid : String}
    (clears : ClearsConsole root uuid before after) (plain : before.IsPlainlyNamed) :
    after.IsPlainlyNamed := by
  obtain ⟨middle, places, grown, cleared, -⟩ := clears
  exact cleared.isPlainlyNamed (grown.isPlainlyNamed plain)

/-- What makes whatever is missing clears nothing. -/
theorem Spares.clearsConsole (spares : Spares [] before after) (root : Path) (uuid : String) :
    ClearsConsole root uuid before after :=
  ⟨after, [], spares, spares_self after, nofun⟩

/-- To clear one console leaves the console of another identity alone. -/
theorem ClearsConsole.kept (clears : ClearsConsole root other.canonical before after)
    (plain : before.IsPlainlyNamed) (apart : other ≠ identity) {kind : Node}
    (leads : before.resolve ⟨false, false⟩ [] (Layout.console root identity.canonical) = .ok target)
    (stands : before.kindAt? target = some kind) :
    after.resolve ⟨false, false⟩ [] (Layout.console root identity.canonical) = .ok target ∧
      after.kindAt? target = some kind := by
  obtain ⟨middle, places, grown, cleared, at'⟩ := clears
  have plain := grown.isPlainlyNamed plain
  have leads := grown.resolve rfl (by exact nofun) rfl leads
  have proper : [] ∉ places := by
    intro member
    obtain ⟨outer, -, same⟩ := plain.console_eq (at' [] member)
    cases same
  have past : isUnder places target = false := by
    rw [Bool.eq_false_iff]
    intro under
    obtain ⟨place, member, below⟩ := isUnder_iff.mp under
    have missed := plain.console_apart leads (at' place member) apart
    rw [isUnder_iff.mpr ⟨place, List.mem_singleton_self _, below⟩] at missed
    cases missed
  exact ⟨cleared.resolve rfl proper past leads,
    cleared.kept _ _ past (grown.kept _ _ rfl stands)⟩

end Tree

namespace RunDirectory

open TreeRequest VmFleet.Tree

variable {tree : Tree} {root : Path} {identity : Uuid}

/-- To take a console away spares everything else. -/
theorem clearsConsole_of_removeFile (root : Path) (identity : Uuid) (tree : Tree)
    (plain : tree.IsPlainlyNamed) :
    ClearsConsole root identity.canonical tree
      ((removeFile [] (Layout.console root identity.canonical)).run tree).2 := by
  have refused := (spares_self tree).clearsConsole root identity.canonical
  rw [run_removeFile]
  cases leads : tree.resolve ⟨false, false⟩ [] (Layout.console root identity.canonical) with
  | error cause => exact refused
  | ok place =>
    have cleared : ∀ node, tree.find? place = some node → node.isLast = true →
        ClearsConsole root identity.canonical tree ((removeEntry place).run tree).2 := by
      intro node found final
      rw [run_removeEntry]
      split
      · exact refused
      refine ⟨tree, [place], spares_self tree, spares_prune found final, fun other member => ?_⟩
      obtain rfl := List.mem_singleton.mp member
      exact leads
    obtain ⟨outer, -, rfl⟩ := plain.console_eq leads
    simp only
    rcases found : tree.find? _ with _ | (_ | _ | goal | _)
    · exact refused
    · exact cleared _ found rfl
    · exact refused
    · exact absurd rfl (plain.links _ _ goal (kindAt?_eq_link.mpr found)).1
    · exact cleared _ found rfl

/-- To prepare the places of a machine spares everything but its console. -/
theorem clearsConsole_of_prepare (root : Path) (identity : Uuid) (tree : Tree)
    (plain : tree.IsPlainlyNamed) :
    ClearsConsole root identity.canonical tree
      ((ofUuid root identity.canonical).prepare.run tree).2 := by
  have grown := grows_makePath [] (ofUuid root identity.canonical).directory tree
  unfold prepare FileRequest.doing
  rw [run_bind, run_explain]
  rcases made : (makePath [] (ofUuid root identity.canonical).directory).run tree with
    ⟨cause | _, left⟩
  · rw [made] at grown
    exact grown.clearsConsole root _
  · rw [made] at grown
    obtain ⟨middle, places, grown', cleared, at'⟩ :=
      clearsConsole_of_removeFile root identity left (grown.isPlainlyNamed plain)
    refine ⟨middle, places, grown.trans grown', ?_, at'⟩
    change Spares places middle ((attempt _ >>= _ : FileRequest Unit).run left).2
    rw [run_bind, run_attempt]
    -- however the removal ends, the tree stays as it left it
    rcases removed : (removeFile [] (ofUuid root identity.canonical).console).run left with
      ⟨outcome, cut⟩
    obtain rfl : _ = cut := congrArg Prod.snd removed
    rcases outcome with cause | _
    · cases cause <;> exact cleared
    · exact cleared

/-- Where a console was cleared nothing stands. -/
theorem entry_console_of_clearConsole (plain : tree.IsPlainlyNamed) {node : Node}
    (stands : tree.entry [] (ofUuid root identity.canonical).console = .ok node)
    (inner : ∀ modified, node ≠ .directory modified) :
    ∃ cause, ((ofUuid root identity.canonical).clearConsole tree).entry []
      (ofUuid root identity.canonical).console = .error cause := by
  obtain ⟨place, leads, found⟩ := entry_eq_ok.mp stands
  obtain ⟨outer, -, rfl⟩ := plain.console_eq leads
  have cut : (ofUuid root identity.canonical).clearConsole tree =
      tree.without [octetsOf "tty" :: octetsOf identity.canonical :: outer] := by
    unfold clearConsole
    rw [run_removeFile, leads]
    simp only
    rw [found]
    cases node with
    | directory modified => exact absurd rfl (inner modified)
    | file | link | special =>
      simp only
      rw [run_removeEntry, plain.yields]
      exact prune_eq_without _ _
  cases still : ((ofUuid root identity.canonical).clearConsole tree).entry []
      (ofUuid root identity.canonical).console with
  | error cause => exact ⟨cause, rfl⟩
  | ok other =>
    obtain ⟨target, leads', -⟩ := entry_eq_ok.mp still
    rw [cut] at leads'
    obtain ⟨same, past⟩ := (resolve_without tree _ rfl (by simp) _).eq_of_ok leads'
    obtain rfl := Except.ok.inj (leads.symm.trans same)
    rw [isUnder_iff.mpr ⟨_, List.mem_singleton_self _, List.suffix_refl _⟩] at past
    cases past

end RunDirectory

end VmFleet
