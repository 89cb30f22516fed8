/-
  ComponentScript.Model.Table — a semantic model held in memory, and its file.

  Symbols and types are kept apart, each by span. The dummy span names no node: nothing is
  stored for it. The file lists both in the order of their spans.
-/

import ComponentScript.Json.Printer
import ComponentScript.Json.Grammar
import ComponentScript.Model.Basic
import Std.Data.TreeMap

namespace ComponentScript

open Json

structure SemanticTable where
  symbols : Std.TreeMap Span SymbolInfo := ∅
  types : Std.TreeMap Span TypeInfo := ∅

namespace SemanticTable

def empty : SemanticTable := {}

/-- Stores a symbol; the last one for a span counts. -/
def insertSymbol (t : SemanticTable) (s : Span) (info : SymbolInfo) : SemanticTable :=
  if s.isDummy then t else ⟨t.symbols.insert s info, t.types⟩

/-- Stores a type; the last one for a span counts. -/
def insertType (t : SemanticTable) (s : Span) (info : TypeInfo) : SemanticTable :=
  if s.isDummy then t else ⟨t.symbols, t.types.insert s info⟩

def size (t : SemanticTable) : Nat := t.symbols.size + t.types.size

def isEmpty (t : SemanticTable) : Bool := t.size = 0

def symbol (t : SemanticTable) (s : Span) : Option SymbolInfo :=
  if s.isDummy then none else t.symbols[s]?

def type (t : SemanticTable) (s : Span) : Option TypeInfo :=
  if s.isDummy then none else t.types[s]?

def toModel (t : SemanticTable) : Model := ⟨t.symbol, t.type⟩

/-! ## The file -/

/-- The entries of a file, in the order they are listed. -/
structure Entries where
  symbols : List (Span × SymbolInfo) := []
  types : List (Span × TypeInfo) := []

def ofEntries (e : Entries) : SemanticTable :=
  let symbols := e.symbols.foldl (fun t s => t.insertSymbol s.1 s.2) empty
  e.types.foldl (fun t s => t.insertType s.1 s.2) symbols

def readSymbolEntry : Reader (Span × SymbolInfo) :=
  readRecord (Prod.mk <$> required "span" Span.read <*> required "symbol" SymbolInfo.read)

def readTypeEntry : Reader (Span × TypeInfo) :=
  readRecord (Prod.mk <$> required "span" Span.read <*> required "type" TypeInfo.read)

def read : Reader SemanticTable :=
  readRecord ((fun symbols types => ofEntries ⟨symbols, types⟩)
      <$> defaulted "symbols" [] (readList readSymbolEntry)
      <*> defaulted "types" [] (readList readTypeEntry))

def toJson (t : SemanticTable) : Json :=
  .obj [
    ("symbols", .arr (t.symbols.toList.map fun e =>
      .obj [("span", e.1.toJson), ("symbol", e.2.toJson)])),
    ("types", .arr (t.types.toList.map fun e =>
      .obj [("span", e.1.toJson), ("type", e.2.toJson)]))]

/-- The table of a file's text. -/
def ofText (text : String) : Reading SemanticTable := readWhole read text

def toText (t : SemanticTable) : String := pretty 0 t.toJson

end SemanticTable

end ComponentScript
