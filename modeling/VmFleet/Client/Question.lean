/-
This file holds what a client can ask of a daemon. A question carries the type of
its answer, so one link serves them all. A link says for each question when the
answer comes, if it ever does; a refusal comes as a text.
-/

import VmFleet.Images.Index
import VmFleet.Operation
import VmFleet.Registry.Identity

namespace VmFleet.Client

/-- A question, with the type of its answer. -/
inductive Question : Type → Type
  | echo : Question DaemonInfo
  | listImages : Question (List ChannelImages)
  | removeImage (channel version : String) : Question (List ChannelImages)
  | listVms : Question (List Vm)
  | run (draft : Vm) : Question Vm
  | stop (targets : List String) : Question (List String)
  | identify (uuid : String) : Question Identity
  | stopServer : Question String

/-- The operation that a question asks for. -/
def Question.operation {α : Type} : Question α → Operation
  | echo => .echo
  | listImages => .imagesList
  | removeImage .. => .imagesRemove
  | listVms => .vmList
  | run _ => .vmRun
  | stop _ => .vmStop
  | identify _ => .vmIdentify
  | stopServer => .serverStop

/-- An answer or a refusal, and the milliseconds after which it comes. -/
structure Reply (α : Type) where
  after : Nat
  answer : Except String α

/-- How questions reach a daemon. There may be no reply at all. -/
structure Link (m : Type → Type) where
  ask : {α : Type} → Question α → m (Option (Reply α))

namespace Link

/-- The link on which nobody answers. -/
def silent {m : Type → Type} [Monad m] : Link m :=
  ⟨fun _ => pure none⟩

end Link

end VmFleet.Client
