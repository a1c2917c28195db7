import DeclPieces.Log
import DeclPieces.Proofs.Lines
import Mathlib.Data.List.Induction

/-! What a receiver of log records does after the calls that made it from another. A handler writes every attribute
under the groups that were open when it was added, and several receivers together do what each of them does alone. -/
namespace DeclPieces.Log

/-- A call that makes a receiver from another one. -/
inductive Call where
  | attrs (attrs : List Attr)
  | group (name : Text)

namespace Call

/-- The attributes that the call adds. -/
def added : Call → List Attr
  | attrs as => as
  | group _ => []

/-- The group that the call opens. One without a name is none. -/
def opened? : Call → Option Text
  | attrs _ => none
  | group name => if name.isEmpty then none else some name

end Call

/-- The groups that some calls open, the outermost first. -/
def openGroups (calls : List Call) : List Text := calls.filterMap Call.opened?

/-- Puts the names of groups before the key, each with a dot. -/
def under (groups : List Text) (attr : Attr) : Attr := (groups.flatMap (· ++ Text.ofString ".") ++ attr.1, attr.2)

/-- The attributes that some calls add, each under the groups that the calls before its own have opened. -/
def preset (calls : List Call) : List Attr :=
  calls.zipIdx.flatMap fun (call, i) => call.added.map (under (openGroups (calls.take i)))

/-- What a record holds of the attributes that it is made with: all but groups without members. -/
def Record.held (r : Record) : List Attr := r.attrs.filter fun a => !a.2.isEmptyGroup

/-- An attribute as it stands in a line. -/
def written (attr : Attr) : Text := " " ++ attr.1 ++ "=" ++ attr.2.render

/-- The line of a record with some attributes, of which those without a key are left out. -/
def Record.lineWith (r : Record) (attrs : List Attr) : Text :=
  let tail : Text := if attrs.isEmpty then [] else " |" ++ (attrs.filter fun a => !a.1.isEmpty).flatMap written
  instantText r.time ++ " [" ++ r.level.name ++ "] " ++ r.message ++ tail ++ [Text.newline]

lemma openGroups_append (calls : List Call) (call : Call) :
    openGroups (calls ++ [call]) = openGroups calls ++ call.opened?.toList := by
  cases h : call.opened? <;> simp [openGroups, h]

lemma preset_append (calls : List Call) (call : Call) :
    preset (calls ++ [call]) = preset calls ++ call.added.map (under (openGroups calls)) := by
  have hbefore : ∀ x ∈ calls.zipIdx, (calls ++ [call]).take x.2 = calls.take x.2 := by
    intro x hx
    have hlt := (List.mem_zipIdx hx).2.1
    exact List.take_append_of_le_length (by omega)
  simp only [preset, List.zipIdx_append, List.flatMap_append]
  congr 1
  · exact List.flatMap_congr fun x hx => by rw [hbefore x hx]
  · simp

namespace Receiver
variable {H Out : Type} [Receiver H Out]

def call (h : H) : Call → H
  | .attrs attrs => withAttrs h attrs
  | .group name => withGroup h name

/-- What some calls, one after another, make from a receiver. -/
def after (h : H) (calls : List Call) : H := calls.foldl call h

lemma after_append (h : H) (calls : List Call) (c : Call) : after h (calls ++ [c]) = call (after h calls) c := by
  simp [after]

/-- Receivers that are driven together are each driven alone. -/
lemma after_tee (t : Tee H) (calls : List Call) : after t calls = t.map (after · calls) := by
  induction calls using List.reverseRecOn with
  | nil => exact (List.map_id t).symm
  | append_singleton calls c ih =>
    have hcall (t : Tee H) : call t c = t.map (call · c) := by cases c <;> rfl
    rw [after_append, ih, hcall, List.map_map]
    exact List.map_congr_left fun h _ => (after_append h calls c).symm

end Receiver

namespace Handler
open Receiver

lemma qualify_eq (h : Handler) (attr : Attr) : h.qualify attr = under h.groups attr := by
  have hjoin (groups : List Text) (key : Text) :
      Text.joinWith "." (groups ++ [key]) = groups.flatMap (· ++ Text.ofString ".") ++ key := by
    induction groups with
    | nil => rfl
    | cons name rest ih =>
      rw [List.cons_append, Text.joinWith_cons _ name (by simp), ih, List.flatMap_cons, List.append_assoc _ _ key]
  rw [qualify, hjoin, under]

/-- A handler after some calls has their groups, and their attributes under the groups open at each. -/
lemma after_eq (level : Level) (calls : List Call) : after ({ level } : Handler) calls =
    { level, attrs := preset calls, groups := openGroups calls } := by
  induction calls using List.reverseRecOn with
  | nil => rfl
  | append_singleton calls c ih =>
    rw [after_append, ih, preset_append, openGroups_append]
    cases c with
    | attrs attrs =>
      have hqualify : attrs.map (qualify { level, attrs := preset calls, groups := openGroups calls }) =
          attrs.map (under (openGroups calls)) := List.map_congr_left fun a _ => qualify_eq _ a
      simp [call, Receiver.withAttrs, Handler.withAttrs, hqualify, Call.added, Call.opened?]
    | group name =>
      by_cases hname : name.isEmpty = true <;>
        simp [call, Receiver.withGroup, Handler.withGroup, hname, Call.added, Call.opened?]

lemma flatMap_attrText (attrs : List Attr) :
    attrs.flatMap attrText = (attrs.filter fun a => !a.1.isEmpty).flatMap written := by
  induction attrs with
  | nil => rfl
  | cons a rest ih => by_cases hkey : a.1.isEmpty = true <;> simp [attrText, hkey, ih, written]

lemma line_eq (h : Handler) (r : Record) : h.line r = r.lineWith (h.attrs ++ r.held.map (under h.groups)) := by
  have hqualify : r.held.map h.qualify = r.held.map (under h.groups) := List.map_congr_left fun a _ => qualify_eq h a
  have hbracket : Text.ofString " [" = Text.ofString " " ++ Text.ofString "[" := by decide
  rw [← hqualify]
  simp only [line, body, Record.held, flatMap_attrText, Record.lineWith, hbracket, List.append_assoc]
  rfl

end Handler

open Receiver

/-- After some calls a handler writes the attributes that the calls have added and then those of the record, each under
the groups that were open when it was added. A tee is enabled if one of its receivers is. Those that are do with a
record what each does alone after the same calls, and the others are not given it. -/
theorem line_after_calls (calls : List Call) (r : Record) :
    (∀ level : Level, (after ({ level } : Handler) calls).line r =
      r.lineWith (preset calls ++ r.held.map (under (openGroups calls)))) ∧
    ∀ {H Out : Type} [Receiver H Out] (t : Tee H),
      (∀ level, (after t calls).enabled level = true ↔ ∃ h ∈ t, enabled (after h calls) level = true) ∧
        (after t calls).handle r =
          t.map fun h => if enabled (after h calls) r.level then some (handle (after h calls) r) else none := by
  refine ⟨fun level => ?_, fun t => ⟨fun level => ?_, ?_⟩⟩
  · rw [Handler.line_eq, Handler.after_eq]
  · rw [after_tee, Tee.enabled, List.any_map, List.any_eq_true]
    rfl
  · rw [after_tee, Tee.handle, List.map_map]
    rfl

/-- A group without a name opens none, and an attribute without a key has one inside a group. -/
example : (after ({} : Handler) [.attrs [("a", .text "1"), ("", .text "2")], .group "g", .group "", .attrs [("", .text "3")],
    .group "h"]).body { level := Level.warn, message := "m", attrs := [("b", .text "4"), ("c", .group [])] } =
      "[warn] m | a=1 g.=3 g.h.b=4" := by decide

end DeclPieces.Log
