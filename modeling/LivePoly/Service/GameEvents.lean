import LivePoly.Lib.Keyset
import LivePoly.Lib.Trace
import LivePoly.Service.Database
import Mathlib.Data.Rat.Defs

/-!
# Service.GameEvents

The event log of the games (`GameEventsService`, `GameEventsRepository`) and its cursors. The table
`game_events` keeps its rows in any order. A client polls, and passes back the last cursor it was
given.
-/

namespace LivePoly
namespace Service

/-! ## Cursors -/

/-- A value of a JSON object. -/
inductive JsonValue where
  | number (value : ℚ)
  | string (value : String)
  | other
  deriving DecidableEq

/-- What a cursor is made of: texts and natural numbers. -/
def JsonValue.IsPlain : JsonValue → Prop
  | number value => ∃ n : Nat, value = n
  | string _ => True
  | other => False

/-- JSON in base64url. A text that is no JSON object is rejected, as the empty one is. -/
structure CursorCodec where
  encode : List (String × JsonValue) → String
  decode : String → Option (List (String × JsonValue))
  decode_encode : ∀ fields, (∀ field ∈ fields, field.2.IsPlain) →
    decode (encode fields) = some fields
  decode_empty : decode "" = none

/-! ## The table -/

/-- The id of a row is not read. -/
structure GameEventLogRecord (γ ε : Type) where
  gameId : γ
  sequence : Nat
  type : String
  payload : ε
  createdAt : Nat
  deriving DecidableEq

structure GameEventRecoveryItem (ε : Type) where
  sequence : Nat
  type : String
  payload : ε
  createdAt : Nat
  deriving DecidableEq

structure GameEventRecoveryResponse (ε : Type) where
  items : List (GameEventRecoveryItem ε)
  nextCursor : Option String
  hasMore : Bool
  deriving DecidableEq

inductive GameEventsError where
  | badRequest | database
  deriving DecidableEq

variable {γ ε : Type} [DecidableEq γ]

/-- The order by sequence. -/
def BySequence (x y : GameEventLogRecord γ ε) : Prop := x.sequence ≤ y.sequence

/-- The order by sequence, the latest first. -/
def BySequenceDesc (x y : GameEventLogRecord γ ε) : Prop := y.sequence ≤ x.sequence

instance : DecidableRel (BySequence (γ := γ) (ε := ε)) :=
  fun x y => inferInstanceAs (Decidable (x.sequence ≤ y.sequence))

instance : DecidableRel (BySequenceDesc (γ := γ) (ε := ε)) :=
  fun x y => inferInstanceAs (Decidable (y.sequence ≤ x.sequence))

namespace GameEventsRepository

/-- The column is an integer, so another number is an error of the database. -/
def listEventsAfter (table : List (GameEventLogRecord γ ε)) (gameId : γ) (sequence : ℚ)
    (limit : Nat) : Except GameEventsError (List (GameEventLogRecord γ ε)) :=
  if sequence.den = 1 then
    .ok (((table.filter fun row => row.gameId = gameId && sequence < row.sequence).insertionSort
      BySequence).take limit)
  else .error .database

def listLatestEvents (table : List (GameEventLogRecord γ ε)) (gameId : γ) (limit : Nat) :
    List (GameEventLogRecord γ ε) :=
  (((table.filter fun row => row.gameId = gameId).insertionSort BySequenceDesc).take limit).reverse

def getNextSequence (table : List (GameEventLogRecord γ ε)) (gameId : γ) : Nat :=
  ((((table.filter fun row => row.gameId = gameId).map
    GameEventLogRecord.sequence).max?).getD 0) + 1

/-- `eventType` is the `type` of an event. -/
def appendEvents (eventType : ε → String) (table : List (GameEventLogRecord γ ε)) (gameId : γ)
    (events : List ε) (now : Nat) : List (GameEventLogRecord γ ε) :=
  let nextSequence := getNextSequence table gameId
  table ++ events.zipIdx.map fun (event, index) =>
    { gameId
      sequence := nextSequence + index
      type := eventType event
      payload := event
      createdAt := now }

end GameEventsRepository

/-! ## Recovery -/

namespace GameEventsService

def gameEventRecoveryLimit : Nat := 100

def encodeCursor (codec : CursorCodec) (sequence : Nat) : String :=
  codec.encode [("v", .number 1), ("sequence", .number sequence)]

def decodeCursor (codec : CursorCodec) (cursor : Option String) :
    Except GameEventsError (Option ℚ) :=
  match cursor with
  | none => .ok none
  | some text =>
    if text = "" then .ok none
    else match codec.decode text with
      | none => .error .badRequest
      | some fields =>
        match fields.lookup "v", fields.lookup "sequence" with
        | some (.number version), some (.number sequence) =>
          if version ≠ 1 ∨ sequence < 0 then .error .badRequest else .ok (some sequence)
        | _, _ => .error .badRequest

def mapEvent (event : GameEventLogRecord γ ε) : GameEventRecoveryItem ε where
  sequence := event.sequence
  type := event.type
  payload := event.payload
  createdAt := event.createdAt

def listEvents (codec : CursorCodec) (table : List (GameEventLogRecord γ ε)) (gameId : γ)
    (cursor : Option String) : Except GameEventsError (GameEventRecoveryResponse ε) := do
  let cursor ← decodeCursor codec cursor
  let rows ← match cursor with
    | some sequence =>
      GameEventsRepository.listEventsAfter table gameId sequence (gameEventRecoveryLimit + 1)
    | none =>
      .ok (GameEventsRepository.listLatestEvents table gameId (gameEventRecoveryLimit + 1))
  let items := rows.take gameEventRecoveryLimit
  return {
    items := items.map mapEvent
    nextCursor := items.getLast?.map fun item => encodeCursor codec item.sequence
    hasMore := gameEventRecoveryLimit < rows.length }

end GameEventsService

/-! ## A client -/

/-- What happens while a client of a game recovers its events. -/
inductive RecoveryInput (γ ε : Type) where
  | append (gameId : γ) (events : List ε) (now : Nat)
  | poll
  deriving DecidableEq

/-- The table, and the cursor the client passes. -/
structure RecoveryState (γ ε : Type) where
  table : List (GameEventLogRecord γ ε)
  cursor : Option String

/-- A client that fails to be answered goes on with its cursor. -/
def recoveryStep (codec : CursorCodec) (eventType : ε → String) (gameId : γ)
    (s : RecoveryState γ ε) : RecoveryInput γ ε →
      RecoveryState γ ε × List (GameEventRecoveryItem ε)
  | .append game events now =>
    ({ s with table := GameEventsRepository.appendEvents eventType s.table game events now }, [])
  | .poll =>
    match GameEventsService.listEvents codec s.table gameId s.cursor with
    | .ok response => ({ s with cursor := response.nextCursor <|> s.cursor }, response.items)
    | .error _ => (s, [])

end Service
end LivePoly
