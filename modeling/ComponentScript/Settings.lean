/-
  ComponentScript.Settings — what a project can choose about its script text.
-/

import ComponentScript.Json.Fields

namespace ComponentScript

open Json

structure Settings where
  /-- The receiver of members that are named without one. -/
  instanceReceiver : String := "this"
  /-- The member that looks up a service by its type name. -/
  serviceLookupMethod : String := "getService"
  /-- The member called when a resource scope ends. -/
  releaseMethod : String := "dispose"
  /-- The member awaited when an asynchronous resource scope ends. -/
  asyncReleaseMethod : String := "disposeAsync"
  /-- Capitalized names that are types and never members of the instance. -/
  wellKnownTypes : List String :=
    ["Math", "MathF", "Console", "Task", "ValueTask", "String", "Object", "Array", "JSON",
     "Promise", "Number", "Date", "Debug", "Trace", "Enumerable"]
  /-- One level of indentation. -/
  indent : String := "  "

namespace Settings

def isWellKnownType (s : Settings) (name : String) : Bool := s.wellKnownTypes.contains name

/-- Missing fields keep their defaults. -/
def read : Reader Settings :=
  let d : Settings := {}
  readRecord (
    Settings.mk <$> defaulted "instance_receiver" d.instanceReceiver readString
      <*> defaulted "service_lookup_method" d.serviceLookupMethod readString
      <*> defaulted "release_method" d.releaseMethod readString
      <*> defaulted "async_release_method" d.asyncReleaseMethod readString
      <*> defaulted "well_known_types" d.wellKnownTypes (readList readString)
      <*> defaulted "indent" d.indent readString)

def toJson (s : Settings) : Json :=
  .obj [("instance_receiver", .str s.instanceReceiver),
    ("service_lookup_method", .str s.serviceLookupMethod),
    ("release_method", .str s.releaseMethod),
    ("async_release_method", .str s.asyncReleaseMethod),
    ("well_known_types", .arr (s.wellKnownTypes.map .str)),
    ("indent", .str s.indent)]

end Settings

end ComponentScript
