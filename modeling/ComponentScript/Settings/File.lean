/-
  ComponentScript.Settings.File — the settings of a project, from its settings file.

  A project without the file has the defaults. Unknown keys are ignored; a known key must
  have a value of its type.
-/

import ComponentScript.Settings
import ComponentScript.Toml.Reader

namespace ComponentScript.Settings

open Toml (Entries)

inductive FileError where
  /-- The file is not there or not text. -/
  | unreadable
  /-- The text is not TOML, or a value has the wrong type. -/
  | malformed
  deriving DecidableEq

/-- What went wrong with the file at a path. -/
def FileError.message (path : String) : FileError → String
  | .unreadable => s!"failed to read {path}"
  | .malformed => s!"failed to parse {path}"

def stringOf? : Toml → Option String
  | .string s => some s
  | _ => none

def stringsOf? : Toml → Option (List String)
  | .array items => items.mapM stringOf?
  | _ => none

/-- The value of a key; a missing one has its default. -/
def keyOr {α : Type} (es : Entries) (key : String) (default : α) (read : Toml → Option α) :
    Option α :=
  match es.get? key with
  | none => some default
  | some v => read v

def ofEntries? (es : Entries) : Option Settings := do
  let d : Settings := {}
  return {
    instanceReceiver := ← keyOr es "instance_receiver" d.instanceReceiver stringOf?
    serviceLookupMethod := ← keyOr es "service_lookup_method" d.serviceLookupMethod stringOf?
    releaseMethod := ← keyOr es "release_method" d.releaseMethod stringOf?
    asyncReleaseMethod := ← keyOr es "async_release_method" d.asyncReleaseMethod stringOf?
    wellKnownTypes := ← keyOr es "well_known_types" d.wellKnownTypes stringsOf?
    indent := ← keyOr es "indent" d.indent stringOf? }

/-- The settings of a TOML text. -/
def ofTomlText? (text : String) : Option Settings := (Toml.ofText? text).bind ofEntries?

/-- The settings of a file that must be there. -/
def ofFile (content? : Option ByteArray) : Except FileError Settings :=
  match content?.bind String.fromUTF8? with
  | none => .error .unreadable
  | some text =>
    match ofTomlText? text with
    | none => .error .malformed
    | some settings => .ok settings

/-- The settings of a project, by the content of its settings file if it has one. -/
def ofProject (content? : Option ByteArray) : Except FileError Settings :=
  if content?.isNone then .ok {} else ofFile content?

end ComponentScript.Settings
