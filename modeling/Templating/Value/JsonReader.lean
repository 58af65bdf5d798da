import Templating.Value.JsonLexeme

/-!
# Reading JSON

A JSON text is read lexeme by lexeme. In between, the reader knows what may come next and which
lists and mappings are open, the innermost first. Of several entries of a mapping with one key
the last one counts. An integer with too many digits is refused where it stands, anything else
that is out of place as malformed.

## Main definitions

* `Json.Reading`: where the reader stands.
* `Json.Reading.step`: what a lexeme does to it.
* `Json.read`: the value of a JSON text.
-/

namespace Templating.Json

/-- A list or a mapping that is not closed yet, without the part that is being read. -/
inductive Frame where
  /-- The items before the current one, the latest first. -/
  | list (items : List Value)
  /-- The entries before the current one, and its key. -/
  | entry (entries : Entries) (key : String)

/-- Where the reader of a JSON text stands. -/
inductive Reading where
  /-- A value has to come. -/
  | value (frames : List Frame)
  /-- The first item of a list has to come, or the end of the list. -/
  | firstItem (outer : List Frame)
  /-- The first key of a mapping has to come, or the end of the mapping. -/
  | firstKey (outer : List Frame)
  /-- A further key has to come. -/
  | furtherKey (entries : Entries) (outer : List Frame)
  /-- The colon after a key has to come. -/
  | colon (entries : Entries) (key : String) (outer : List Frame)
  /-- A value is complete. -/
  | complete (v : Value) (frames : List Frame)

/-- The integer that a sign and digits denote (`Numeral.integer?`); too many digits are a fault. -/
def integerOf (digits : List Char) : Except Fault Value :=
  match Numeral.integer? digits with
  | some i => .ok (.int i)
  | none => .error .integerTooLong

/-- Reads the lexeme that a value begins with. -/
def beginValue (frames : List Frame) : Lexeme → Except Fault Reading
  | .openList => .ok (.firstItem frames)
  | .openMapping => .ok (.firstKey frames)
  | .text s => .ok (.complete (.text s) frames)
  | .literal v => .ok (.complete v frames)
  | .integer digits => (integerOf digits).map fun v => .complete v frames
  | _ => .error .malformedJson

/-- Reads the lexeme after a value inside a list or a mapping. -/
def continueFrame (v : Value) (outer : List Frame) : Frame → Lexeme → Except Fault Reading
  | .list items, .comma => .ok (.value (.list (v :: items) :: outer))
  | .list items, .closeList => .ok (.complete (.list (v :: items).reverse) outer)
  | .entry entries key, .comma => .ok (.furtherKey (entries.set key v) outer)
  | .entry entries key, .closeMapping => .ok (.complete (.mapping (entries.set key v)) outer)
  | _, _ => .error .malformedJson

/-- What a lexeme does to the reader. The open lists and mappings stand on a stack (`Frame`), so
reading is one fold along the lexemes. -/
def Reading.step : Reading → Lexeme → Except Fault Reading
  | .value frames, lexeme => beginValue frames lexeme
  | .firstItem outer, .closeList => .ok (.complete (.list []) outer)
  | .firstItem outer, lexeme => beginValue (.list [] :: outer) lexeme
  | .firstKey outer, .closeMapping => .ok (.complete (.mapping []) outer)
  | .firstKey outer, .text key => .ok (.colon [] key outer)
  | .furtherKey entries outer, .text key => .ok (.colon entries key outer)
  | .colon entries key outer, .colon => .ok (.value (.entry entries key :: outer))
  | .complete v (frame :: outer), lexeme => continueFrame v outer frame lexeme
  | _, _ => .error .malformedJson

/-- The value of a JSON text: the one that `Reading.step` has completed when all lexemes are
read. -/
def read (s : String) : Except Fault Value := do
  match ← (lexemes s).foldlM Reading.step (.value []) with
  | .complete v [] => return v
  | _ => throw .malformedJson

end Templating.Json
