import HttpRouting.Json.Fields
import HttpRouting.Json.Writer
import HttpRouting.Uuid

/-!
Entries of a log, written as one JSON object each.
-/

set_option autoImplicit false
set_option relaxedAutoImplicit false

namespace HttpRouting

/-- How much an entry matters. -/
inductive LogLevel where
  | error
  | warn
  | info
  | debug
  | trace
deriving DecidableEq, Repr

/-- The name of a level. -/
def LogLevel.text : LogLevel → String
  | .error => "ERROR"
  | .warn => "WARN"
  | .info => "INFO"
  | .debug => "DEBUG"
  | .trace => "TRACE"

/-- All levels. -/
def LogLevel.all : List LogLevel := [.error, .warn, .info, .debug, .trace]

/-- The part of the library that an entry comes from. -/
inductive LogComponent where
  | registry
  | resolver
  | dispatcher
deriving DecidableEq, Repr

/-- The name of a component. -/
def LogComponent.text : LogComponent → String
  | .registry => "Registry"
  | .resolver => "Resolver"
  | .dispatcher => "Dispatcher"

/-- All components. -/
def LogComponent.all : List LogComponent := [.registry, .resolver, .dispatcher]

/-- An entry of a log. -/
structure LogEntry where
  timestamp : String
  level : LogLevel
  threadId : Option String
  file : Option String
  line : Option Nat
  column : Option Nat
  exchangeId : Option Uuid
  component : LogComponent
  message : String
deriving DecidableEq, Repr

namespace LogEntry

/-- An entry that says no more than what it is about; its level is the one for details. -/
def about (component : LogComponent) (message : String) : LogEntry :=
  ⟨"", .debug, none, none, none, none, none, component, message⟩

/-- The fields of an entry in their order. -/
def fieldNames : List String :=
  ["timestamp", "level", "thread_id", "file", "line", "column", "exchange_id", "component",
    "message"]

/-- A name in JSON: a string, or an object with the name as its only field and null as value. -/
def nameOf? : Json → Option String
  | .string text => text
  | .object [(name, .null)] => name
  | _ => none

/-- Read one of several named values. -/
def choice? {α : Type} (all : List α) (text : α → String) (json : Json) : Option α :=
  (nameOf? json).bind fun name => all.find? fun value => text value == name

/-- Positions within a file lie below this one. -/
def positionLimit : Nat := UInt32.size

/-- Read an entry. -/
def ofJson? (json : Json) : Option LogEntry := do
  let found ← json.found? fieldNames
  match found.fields with
  | [timestamp, level, threadId, file, line, column, exchangeId, component, message] =>
    return {
      timestamp := ← (← timestamp).string?
      level := ← choice? LogLevel.all LogLevel.text (← level)
      threadId := ← Json.optional found.complete Json.string? threadId
      file := ← Json.optional found.complete Json.string? file
      line := ← Json.optional found.complete (Json.natBelow? positionLimit) line
      column := ← Json.optional found.complete (Json.natBelow? positionLimit) column
      exchangeId :=
        ← Json.optional found.complete (fun json => json.string?.bind Uuid.parse?) exchangeId
      component := ← choice? LogComponent.all LogComponent.text (← component)
      message := ← (← message).string? }
  | _ => none

/-- An entry in JSON. -/
def toJson (e : LogEntry) : Json :=
  Json.ofFields
    [("timestamp", .ofString e.timestamp), ("level", .ofString e.level.text),
      ("thread_id", Json.ofOption Json.ofString e.threadId),
      ("file", Json.ofOption Json.ofString e.file), ("line", Json.ofOption Json.ofNat e.line),
      ("column", Json.ofOption Json.ofNat e.column),
      ("exchange_id", Json.ofOption (fun (id : Uuid) => Json.ofString id.text) e.exchangeId),
      ("component", .ofString e.component.text), ("message", .ofString e.message)]

/-- The text of an entry. -/
def text (e : LogEntry) : String :=
  e.toJson.write

end LogEntry

end HttpRouting
