/-
  ComponentScript.Diagnostic — anomalies a conversion records without failing.
-/

import ComponentScript.Syntax.Decode
import ComponentScript.Syntax.Encode

namespace ComponentScript

open Json

inductive DiagnosticKind where
  /-- No rule applies: the node was emitted as it stands in the source. -/
  | unsupported
  /-- Converted, but a detail without a counterpart was dropped. -/
  | lossy
  /-- Converted to code that knowingly behaves differently. -/
  | behaviorGap
  deriving DecidableEq

namespace DiagnosticKind

def all : List DiagnosticKind := [.unsupported, .lossy, .behaviorGap]

def word : DiagnosticKind → String
  | .unsupported => "unsupported" | .lossy => "lossy" | .behaviorGap => "behavior_gap"

/-- The kind as it is shown to people. -/
def label : DiagnosticKind → String
  | .unsupported => "unsupported" | .lossy => "lossy" | .behaviorGap => "behavior-gap"

end DiagnosticKind

structure Diagnostic where
  kind : DiagnosticKind
  nodeKind : String
  span : Span
  message : String
  deriving DecidableEq

namespace Diagnostic

def unsupported (nodeKind : String) (span : Span) : Diagnostic :=
  ⟨.unsupported, nodeKind, span, s!"no conversion for `{nodeKind}`; emitted verbatim"⟩

def lossy (nodeKind : String) (span : Span) (message : String) : Diagnostic :=
  ⟨.lossy, nodeKind, span, message⟩

def behaviorGap (nodeKind : String) (span : Span) (message : String) : Diagnostic :=
  ⟨.behaviorGap, nodeKind, span, message⟩

def text (d : Diagnostic) : String :=
  s!"{d.kind.label} [{d.nodeKind}] at {d.span.text}: {d.message}"

def toJson (d : Diagnostic) : Json :=
  .obj [("kind", .str d.kind.word), ("node_kind", .str d.nodeKind), ("span", d.span.toJson),
    ("message", .str d.message)]

def read : Reader Diagnostic :=
  readRecord (
    Diagnostic.mk <$> required "kind" (readWord DiagnosticKind.all DiagnosticKind.word)
      <*> required "node_kind" readString
      <*> required "span" Span.read
      <*> required "message" readString)

end Diagnostic

end ComponentScript
