import LivePoly.Service.GameEvents
import Mathlib.Data.List.Nodup
import Mathlib.Data.Countable.Basic
import Mathlib.Data.Rat.Encodable
import Mathlib.Data.Rat.Floor
import Mathlib.Logic.Equiv.List

/-!
# Rules.EventRecovery

A client that follows the cursors of an event log gets a segment of the log: what a poll returns
begins right behind what the polls before returned, since the sequences are the positions in the
log and the log only grows at its end.
-/

namespace LivePoly
namespace Rules

open Service Service.GameEventsRepository Service.GameEventsService

variable {γ ε : Type} [DecidableEq γ]

/-- The events of a game in their order. -/
def eventLog (table : List (GameEventLogRecord γ ε)) (gameId : γ) :
    List (GameEventLogRecord γ ε) :=
  (table.filter fun row => row.gameId = gameId).insertionSort BySequence

/-- The events of the game have the sequences 1 to `n`. -/
def Numbered (table : List (GameEventLogRecord γ ε)) (gameId : γ) (n : Nat) : Prop :=
  ((table.filter fun row => row.gameId = gameId).map GameEventLogRecord.sequence).Perm
    (List.range' 1 n)

instance : Std.Total (BySequence (γ := γ) (ε := ε)) := ⟨fun x y => Nat.le_total x.sequence y.sequence⟩

instance : IsTrans (GameEventLogRecord γ ε) BySequence := ⟨fun _ _ _ h h' => Nat.le_trans h h'⟩

instance : Std.Total (BySequenceDesc (γ := γ) (ε := ε)) :=
  ⟨fun x y => Nat.le_total y.sequence x.sequence⟩

instance : IsTrans (GameEventLogRecord γ ε) BySequenceDesc := ⟨fun _ _ _ h h' => Nat.le_trans h' h⟩

/-! ## Queries -/

section Queries

variable {table : List (GameEventLogRecord γ ε)} {gameId : γ} {n : Nat}

theorem Numbered.eq_of_sequence (h : Numbered table gameId n) {x y : GameEventLogRecord γ ε}
    (hx : x ∈ table.filter fun row => row.gameId = gameId)
    (hy : y ∈ table.filter fun row => row.gameId = gameId) (heq : x.sequence = y.sequence) :
    x = y :=
  List.inj_on_of_nodup_map (h.nodup_iff.mpr List.nodup_range') hx hy heq

theorem eventLog_perm : (eventLog table gameId).Perm (table.filter fun row => row.gameId = gameId) :=
  List.perm_insertionSort _ _

theorem eventLog_sequences (h : Numbered table gameId n) :
    (eventLog table gameId).map GameEventLogRecord.sequence = List.range' 1 n := by
  have hperm := (eventLog_perm.map GameEventLogRecord.sequence).trans h
  have hsorted : ((eventLog table gameId).map GameEventLogRecord.sequence).Pairwise (· ≤ ·) :=
    List.pairwise_map.mpr (List.pairwise_insertionSort BySequence _)
  have hrange : (List.range' 1 n).Pairwise (· ≤ ·) :=
    (List.pairwise_lt_range' (s := 1) (n := n)).imp fun h => Nat.le_of_lt h
  exact hperm.eq_of_pairwise (fun _ _ _ _ => Nat.le_antisymm) hsorted hrange

theorem eventLog_length (h : Numbered table gameId n) : (eventLog table gameId).length = n := by
  rw [← List.length_map GameEventLogRecord.sequence, eventLog_sequences h, List.length_range']

omit [DecidableEq γ] in
theorem filter_sequence {rows : List (GameEventLogRecord γ ε)} {a : Nat}
    (h : rows.map GameEventLogRecord.sequence = List.range' (a + 1) rows.length) (c : Nat) :
    (rows.filter fun row => c < row.sequence) = rows.drop (c - a) := by
  induction rows generalizing a with
  | nil => simp
  | cons row rows ih =>
    rw [List.map_cons, List.length_cons, List.range'_succ] at h
    obtain ⟨hhead, htail⟩ := List.cons.inj h
    have hrest := ih (a := a + 1) htail
    by_cases hc : c < row.sequence
    · rw [List.filter_cons_of_pos (by exact decide_eq_true hc), hrest, show c - (a + 1) = 0 by omega,
        show c - a = 0 by omega]
      rfl
    · rw [List.filter_cons_of_neg (by simpa using hc), hrest,
        show c - a = c - (a + 1) + 1 by omega]
      rfl

theorem listEventsAfter_eq (h : Numbered table gameId n) (c limit : Nat) :
    listEventsAfter table gameId c limit = .ok (((eventLog table gameId).drop c).take limit) := by
  have hfilter : (table.filter fun row => row.gameId = gameId && (c : ℚ) < row.sequence) =
      (table.filter fun row => row.gameId = gameId).filter fun row => c < row.sequence := by
    rw [List.filter_filter]
    refine List.filter_congr fun row _ => ?_
    rw [Bool.and_comm]
    congr 1
    exact decide_eq_decide.mpr Nat.cast_lt
  have hsort : ((table.filter fun row => row.gameId = gameId).filter
      fun row => c < row.sequence).insertionSort BySequence = (eventLog table gameId).drop c := by
    rw [Keyset.insertionSort_filter (r := BySequence) _ fun x hx y hy hle hle' =>
      h.eq_of_sequence hx hy (Nat.le_antisymm hle hle')]
    refine (filter_sequence (a := 0) ?_ c).trans rfl
    rw [show (table.filter fun row => row.gameId = gameId).insertionSort BySequence =
      eventLog table gameId from rfl, eventLog_sequences h, eventLog_length h]
  rw [listEventsAfter, if_pos (Rat.den_natCast c), hfilter, hsort]

theorem listLatestEvents_eq (h : Numbered table gameId n) (limit : Nat) :
    listLatestEvents table gameId limit = (eventLog table gameId).drop (n - limit) := by
  have hsort : (table.filter fun row => row.gameId = gameId).insertionSort BySequenceDesc =
      (eventLog table gameId).reverse := by
    refine Keyset.insertionSort_eq (eventLog_perm.symm.trans (List.reverse_perm _).symm) ?_ ?_
    · exact List.pairwise_reverse.mpr (List.pairwise_insertionSort BySequence _)
    · intro x hx y hy hle hle'
      rw [List.mem_reverse] at hx hy
      exact h.eq_of_sequence (eventLog_perm.mem_iff.mp hx) (eventLog_perm.mem_iff.mp hy)
        (Nat.le_antisymm hle' hle)
  rw [listLatestEvents, hsort, List.take_reverse, List.reverse_reverse, eventLog_length h]

theorem getNextSequence_eq (h : Numbered table gameId n) : getNextSequence table gameId = n + 1 := by
  unfold getNextSequence
  congr 1
  cases n with
  | zero =>
    rw [List.perm_nil.mp h]
    rfl
  | succ n =>
    have hmax : ((table.filter fun row => row.gameId = gameId).map
        GameEventLogRecord.sequence).max? = some (n + 1) := by
      refine List.max?_eq_some_iff.mpr ⟨h.mem_iff.mpr (List.mem_range'_1.mpr (by omega)), ?_⟩
      intro b hb
      have := List.mem_range'_1.mp (h.mem_iff.mp hb)
      omega
    rw [hmax]
    rfl

end Queries

/-! ## Appends -/

section Appends

variable {table : List (GameEventLogRecord γ ε)} {gameId game : γ} {n : Nat}
  {eventType : ε → String} {events : List ε} {now : Nat}

/-- The rows of an append. -/
def appendedRows (eventType : ε → String) (gameId : γ) (n : Nat) (events : List ε) (now : Nat) :
    List (GameEventLogRecord γ ε) :=
  events.zipIdx.map fun (event, index) =>
    ⟨gameId, n + 1 + index, eventType event, event, now⟩

omit [DecidableEq γ] in
theorem appendedRows_sequences :
    (appendedRows eventType gameId n events now).map GameEventLogRecord.sequence =
      List.range' (n + 1) events.length := by
  have hindices := congrArg (List.map fun i => n + 1 + i) (List.zipIdx_map_snd 0 events)
  rw [List.map_map, List.map_add_range'] at hindices
  rw [appendedRows, List.map_map]
  exact hindices

theorem filter_appendEvents (h : Numbered table gameId n) :
    ((appendEvents eventType table gameId events now).filter fun row => row.gameId = gameId) =
      (table.filter fun row => row.gameId = gameId) ++
        appendedRows eventType gameId n events now := by
  have hmine : ((appendedRows eventType gameId n events now).filter fun row =>
      row.gameId = gameId) = appendedRows eventType gameId n events now := by
    refine List.filter_eq_self.mpr fun row hrow => ?_
    obtain ⟨_, _, rfl⟩ := List.mem_map.mp hrow
    exact decide_eq_true rfl
  have hrows : appendEvents eventType table gameId events now =
      table ++ appendedRows eventType gameId n events now := by
    rw [appendEvents, getNextSequence_eq h]
    rfl
  rw [hrows, List.filter_append, hmine]

theorem filter_appendEvents_other (hne : game ≠ gameId) :
    ((appendEvents eventType table game events now).filter fun row => row.gameId = gameId) =
      table.filter fun row => row.gameId = gameId := by
  rw [appendEvents, List.filter_append]
  refine (congrArg _ (List.filter_eq_nil_iff.mpr fun row hrow => ?_)).trans (List.append_nil _)
  obtain ⟨_, _, rfl⟩ := List.mem_map.mp hrow
  exact fun hgame => hne (of_decide_eq_true hgame)

theorem eventLog_appendEvents (h : Numbered table gameId n) :
    Numbered (appendEvents eventType table gameId events now) gameId (n + events.length) ∧
      eventLog (appendEvents eventType table gameId events now) gameId =
        eventLog table gameId ++ appendedRows eventType gameId n events now := by
  have hrange : List.range' 1 (n + events.length) =
      List.range' 1 n ++ List.range' (n + 1) events.length := by
    rw [← List.range'_append_1, Nat.add_comm 1 n]
  have hnumbered : Numbered (appendEvents eventType table gameId events now) gameId
      (n + events.length) := by
    rw [Numbered, filter_appendEvents h, List.map_append, appendedRows_sequences, hrange]
    exact h.append_right _
  refine ⟨hnumbered, Keyset.insertionSort_eq (r := BySequence) ?_ ?_ ?_⟩
  · rw [filter_appendEvents h]
    exact eventLog_perm.symm.append_right _
  · have hsorted : ((eventLog table gameId ++ appendedRows eventType gameId n events now).map
        GameEventLogRecord.sequence).Pairwise (· ≤ ·) := by
      rw [List.map_append, eventLog_sequences h, appendedRows_sequences, ← hrange]
      exact (List.pairwise_lt_range' (s := 1)).imp fun h => Nat.le_of_lt h
    rw [List.pairwise_map] at hsorted
    exact hsorted
  · intro x hx y hy hle hle'
    have hmem : ∀ z ∈ eventLog table gameId ++ appendedRows eventType gameId n events now,
        z ∈ (appendEvents eventType table gameId events now).filter fun row =>
          row.gameId = gameId := by
      intro z hz
      rw [filter_appendEvents h]
      rcases List.mem_append.mp hz with hz | hz
      · exact List.mem_append_left _ (eventLog_perm.mem_iff.mp hz)
      · exact List.mem_append_right _ hz
    exact hnumbered.eq_of_sequence (hmem x hx) (hmem y hy) (Nat.le_antisymm hle hle')

theorem eventLog_appendEvents_other (hne : game ≠ gameId) :
    eventLog (appendEvents eventType table game events now) gameId = eventLog table gameId := by
  rw [eventLog, filter_appendEvents_other hne, eventLog]

end Appends

/-! ## Polls -/

section Polls

variable {codec : CursorCodec} {table : List (GameEventLogRecord γ ε)} {gameId : γ} {n : Nat}

theorem decode_encodeCursor (codec : CursorCodec) (sequence : Nat) :
    codec.decode (encodeCursor codec sequence) =
      some [("v", .number 1), ("sequence", .number sequence)] := by
  refine codec.decode_encode _ fun field hfield => ?_
  simp only [List.mem_cons, List.not_mem_nil, or_false] at hfield
  rcases hfield with rfl | rfl
  · exact ⟨1, Nat.cast_one.symm⟩
  · exact ⟨sequence, rfl⟩

theorem encodeCursor_ne_empty (codec : CursorCodec) (sequence : Nat) :
    encodeCursor codec sequence ≠ "" := by
  intro h
  have hdecode := decode_encodeCursor codec sequence
  rw [h, codec.decode_empty] at hdecode
  cases hdecode

theorem decodeCursor_encodeCursor (codec : CursorCodec) (sequence : Nat) :
    decodeCursor codec (some (encodeCursor codec sequence)) = .ok (some (sequence : ℚ)) := by
  have hpos : ¬ ((1 : ℚ) ≠ 1 ∨ (sequence : ℚ) < 0) := by
    rintro (h | h)
    · exact h rfl
    · exact absurd (Nat.cast_nonneg sequence) (not_le.mpr h)
  rw [decodeCursor, if_neg (encodeCursor_ne_empty codec sequence), decode_encodeCursor]
  simp only [List.lookup_cons, String.reduceBEq, if_neg hpos]

/-- Where a client with a cursor or without one goes on. -/
def behindCursor (n : Nat) : Option Nat → Nat
  | some sequence => sequence
  | none => n - 101

theorem segment_sequences (h : Numbered table gameId n) (skipped count : Nat) :
    (((eventLog table gameId).drop skipped).take count).map GameEventLogRecord.sequence =
      List.range' (skipped + 1)
        (((eventLog table gameId).drop skipped).take count).length := by
  rw [List.map_take, List.map_drop, eventLog_sequences h, List.length_take, List.length_drop,
    eventLog_length h, List.drop_range', Nat.mul_one, Nat.add_comm 1 skipped]
  by_cases hmany : count ≤ n - skipped
  · rw [List.take_range'_of_length_ge hmany, Nat.min_eq_left hmany]
  · rw [List.take_range'_of_length_le (by omega), Nat.min_eq_right (by omega)]

/-- A poll returns up to 100 events from where the client goes on. -/
theorem listEvents_eq (codec : CursorCodec) (h : Numbered table gameId n) (cursor : Option Nat) :
    ∃ response, listEvents codec table gameId (cursor.map (encodeCursor codec)) = .ok response ∧
      response.items =
        (((eventLog table gameId).drop (behindCursor n cursor)).take 100).map mapEvent ∧
      response.nextCursor = (if behindCursor n cursor < n then
        some (encodeCursor codec (behindCursor n cursor + response.items.length)) else none) ∧
      (response.hasMore = true ↔ behindCursor n cursor + 100 < n) := by
  have hlength := eventLog_length h
  obtain ⟨rows, hrows, hanswer⟩ : ∃ rows,
      rows = ((eventLog table gameId).drop (behindCursor n cursor)).take 101 ∧
      listEvents codec table gameId (cursor.map (encodeCursor codec)) = .ok {
        items := (rows.take 100).map mapEvent
        nextCursor := (rows.take 100).getLast?.map fun item => encodeCursor codec item.sequence
        hasMore := 100 < rows.length } := by
    cases cursor with
    | none =>
      refine ⟨_, rfl, ?_⟩
      have hall : ((eventLog table gameId).drop (n - 101)).take 101 =
          (eventLog table gameId).drop (n - 101) :=
        List.take_of_length_le (by rw [List.length_drop]; omega)
      rw [behindCursor, hall, ← listLatestEvents_eq h]
      rfl
    | some sequence =>
      refine ⟨_, rfl, ?_⟩
      have hafter := listEventsAfter_eq h sequence 101
      simp only [listEvents, Option.map_some, decodeCursor_encodeCursor, bind, Except.bind,
        gameEventRecoveryLimit, Nat.reduceAdd, hafter]
      rfl
  have hitems : rows.take 100 =
      ((eventLog table gameId).drop (behindCursor n cursor)).take 100 := by
    rw [hrows, List.take_take]
    rfl
  have hcount : (rows.take 100).length = min 100 (n - behindCursor n cursor) := by
    rw [hitems, List.length_take, List.length_drop, hlength]
  refine ⟨_, hanswer, by rw [hitems], ?_, ?_⟩
  · have hlast := congrArg List.getLast? (segment_sequences h (behindCursor n cursor) 100)
    rw [← hitems, List.getLast?_map, List.getLast?_range', hcount] at hlast
    simp only [List.length_map, hcount]
    rw [← Function.comp_def (encodeCursor codec) GameEventLogRecord.sequence, ← Option.map_map,
      hlast]
    by_cases hmore : behindCursor n cursor < n
    · rw [if_pos hmore, if_neg (by omega), Option.map_some]
      congr 2
      omega
    · rw [if_neg hmore, if_pos (by omega), Option.map_none]
  · rw [decide_eq_true_eq, hrows, List.length_take, List.length_drop, hlength]
    omega

end Polls

/-! ## Runs -/

section Runs

variable {codec : CursorCodec} {eventType : ε → String} {gameId : γ} {first : Option Nat}
  {s : RecoveryState γ ε} {items : List (GameEventRecoveryItem ε)}

/-- What a run leads to, and all that the polls return. -/
def recover (codec : CursorCodec) (eventType : ε → String) (gameId : γ) (s : RecoveryState γ ε)
    (inputs : List (RecoveryInput γ ε)) : RecoveryState γ ε × List (GameEventRecoveryItem ε) :=
  inputs.foldl (fun (s, items) input =>
    ((recoveryStep codec eventType gameId s input).1,
      items ++ (recoveryStep codec eventType gameId s input).2)) (s, [])

theorem recover_append (s : RecoveryState γ ε) (inputs : List (RecoveryInput γ ε))
    (input : RecoveryInput γ ε) : recover codec eventType gameId s (inputs ++ [input]) =
      let (t, items) := recover codec eventType gameId s inputs
      ((recoveryStep codec eventType gameId t input).1,
        items ++ (recoveryStep codec eventType gameId t input).2) := by
  rw [recover, List.foldl_append]
  rfl

/-- The items are a segment of the log, and the cursor is its end. -/
structure Segment (codec : CursorCodec) (gameId : γ) (s : RecoveryState γ ε)
    (items : List (GameEventRecoveryItem ε)) (skipped : Nat) : Prop where
  cursor : s.cursor = some (encodeCursor codec (skipped + items.length))
  items : items = (((eventLog s.table gameId).drop skipped).take items.length).map mapEvent

/-- An append leaves the segment where it is. -/
theorem Segment.append {skipped n : Nat} (h : Segment codec gameId s items skipped)
    (hn : Numbered s.table gameId n) (game : γ) (events : List ε) (now : Nat) :
    Segment codec gameId (recoveryStep codec eventType gameId s (.append game events now)).1 items
      skipped := by
  refine ⟨h.cursor, h.items.trans ?_⟩
  simp only [recoveryStep]
  by_cases hgame : game = gameId
  · subst hgame
    rw [(eventLog_appendEvents hn).2]
    have hfits : items.length ≤ ((eventLog s.table game).drop skipped).length := by
      have hlength := congrArg List.length h.items
      rw [List.length_map, List.length_take] at hlength
      omega
    by_cases hskipped : skipped ≤ (eventLog s.table game).length
    · rw [List.drop_append_of_le_length hskipped, List.take_append_of_le_length hfits]
    · have hnone : items.length = 0 := by
        rw [List.length_drop] at hfits
        omega
      rw [hnone, List.take_zero, List.take_zero]
  · rw [eventLog_appendEvents_other hgame]

theorem numbered_step {n : Nat} (hn : Numbered s.table gameId n) (input : RecoveryInput γ ε) :
    ∃ m, Numbered (recoveryStep codec eventType gameId s input).1.table gameId m := by
  cases input with
  | append game events now =>
    by_cases hgame : game = gameId
    · subst hgame
      exact ⟨_, (eventLog_appendEvents hn).1⟩
    · refine ⟨n, ?_⟩
      rw [Numbered, recoveryStep, filter_appendEvents_other hgame]
      exact hn
  | poll =>
    refine ⟨n, ?_⟩
    simp only [recoveryStep]
    split
    · exact hn
    · exact hn

theorem recoveryStep_poll_table (s : RecoveryState γ ε) :
    (recoveryStep codec eventType gameId s .poll).1.table = s.table := by
  simp only [recoveryStep]
  split <;> rfl

/-- Where the next poll goes on, and what has been returned before. -/
theorem poll_eq {n : Nat} (hn : Numbered s.table gameId n) (cursor : Option Nat)
    (hcursor : s.cursor = cursor.map (encodeCursor codec)) :
    recoveryStep codec eventType gameId s .poll =
      let page := (((eventLog s.table gameId).drop (behindCursor n cursor)).take 100).map mapEvent
      ({ s with cursor := if behindCursor n cursor < n then
            some (encodeCursor codec (behindCursor n cursor + page.length)) else s.cursor },
        page) := by
  obtain ⟨response, hresponse, hitems, hnext, _⟩ :=
    listEvents_eq codec hn cursor
  simp only [recoveryStep, hcursor, hresponse, hnext, hitems]
  split <;> rfl

theorem drop_take_append {α : Type} (rows : List α) (skipped count more : Nat) :
    (rows.drop skipped).take count ++ (rows.drop (skipped + count)).take more =
      (rows.drop skipped).take
        (count + ((rows.drop (skipped + count)).take more).length) := by
  have hmore : (rows.drop (skipped + count)).take more =
      (rows.drop (skipped + count)).take ((rows.drop (skipped + count)).take more).length := by
    rw [List.length_take, List.take_eq_take_iff]
    omega
  rw [List.take_add, List.drop_drop, ← hmore]

theorem Segment.poll {skipped n : Nat} (h : Segment codec gameId s items skipped)
    (hn : Numbered s.table gameId n) :
    Segment codec gameId (recoveryStep codec eventType gameId s .poll).1
      (items ++ (recoveryStep codec eventType gameId s .poll).2) skipped := by
  have hlength := eventLog_length hn
  rw [poll_eq hn (some (skipped + items.length)) h.cursor]
  refine ⟨?_, ?_⟩
  · dsimp only [behindCursor]
    by_cases hmore : skipped + items.length < n
    · refine (if_pos hmore).trans ?_
      rw [List.length_append, Nat.add_assoc]
    · have hnone : (eventLog s.table gameId).drop (skipped + items.length) = [] :=
        List.drop_eq_nil_of_le (by omega)
      refine (if_neg hmore).trans ?_
      rw [hnone, List.take_nil, List.map_nil, List.append_nil]
      exact h.cursor
  · dsimp only [behindCursor]
    rw [List.length_append, List.length_map, ← drop_take_append, List.map_append, ← h.items]

/-- The first page of a client without a cursor begins at the latest 101 events. -/
theorem segment_first {n : Nat} (eventType : ε → String) (hcursor : s.cursor = none)
    (hn : Numbered s.table gameId n) :
    (recoveryStep codec eventType gameId s .poll).2 = [] ∧
        (recoveryStep codec eventType gameId s .poll).1 = s ∨
      (recoveryStep codec eventType gameId s .poll).2 ≠ [] ∧
        Segment codec gameId (recoveryStep codec eventType gameId s .poll).1
          (recoveryStep codec eventType gameId s .poll).2 (n - 101) := by
  have hlength := eventLog_length hn
  rw [poll_eq hn none hcursor]
  by_cases hsome : n - 101 < n
  · refine .inr ⟨?_, ?_, ?_⟩
    · intro hnone
      have hempty := congrArg List.length hnone
      dsimp only [behindCursor] at hempty
      rw [List.length_map, List.length_take, List.length_drop, hlength, List.length_nil] at hempty
      omega
    · exact if_pos hsome
    · dsimp only [behindCursor]
      have h := drop_take_append (eventLog s.table gameId) (n - 101) 0 100
      rw [List.take_zero, List.nil_append, Nat.add_zero, Nat.zero_add] at h
      rw [List.length_map, ← h]
  · have hnone : (eventLog s.table gameId).drop (n - 101) = [] :=
      List.drop_eq_nil_of_le (by omega)
    refine .inl ⟨?_, ?_⟩
    · dsimp only [behindCursor]
      rw [hnone, List.take_nil, List.map_nil]
    · exact congrArg (RecoveryState.mk s.table) (if_neg hsome)

/-- The state and the items of a client that began with a cursor, or with none. -/
def recovered (codec : CursorCodec) (eventType : ε → String) (gameId : γ)
    (table : List (GameEventLogRecord γ ε)) (first : Option Nat)
    (inputs : List (RecoveryInput γ ε)) : RecoveryState γ ε × List (GameEventRecoveryItem ε) :=
  recover codec eventType gameId ⟨table, first.map (encodeCursor codec)⟩ inputs

/-- The poll of the run that began to return items to a client without a cursor, and the length of
the log at that time. -/
def FirstPage (codec : CursorCodec) (eventType : ε → String) (gameId : γ)
    (table : List (GameEventLogRecord γ ε)) (inputs : List (RecoveryInput γ ε)) (length : Nat) :
    Prop :=
  ∃ before after, inputs = before ++ .poll :: after ∧
    (recovered codec eventType gameId table none before).2 = [] ∧
    (recovered codec eventType gameId table none (before ++ [.poll])).2 ≠ [] ∧
    length = (eventLog (recovered codec eventType gameId table none before).1.table gameId).length

/-- Either nothing has been returned to a client without a cursor, or the items are a segment of the
log, and the cursor is its end. -/
theorem recovered_inv (codec : CursorCodec) (eventType : ε → String)
    {table : List (GameEventLogRecord γ ε)} {n : Nat} (hn : Numbered table gameId n)
    (first : Option Nat) (inputs : List (RecoveryInput γ ε)) :
    let run := recovered codec eventType gameId table first inputs
    (∃ m, Numbered run.1.table gameId m) ∧
      (first = none ∧ run.1.cursor = none ∧ run.2 = [] ∨
        ∃ skipped, Segment codec gameId run.1 run.2 skipped ∧
          (∀ sequence, first = some sequence → skipped = sequence) ∧
          (first = none → run.2 ≠ [] ∧ ∃ length,
            FirstPage codec eventType gameId table inputs length ∧ skipped = length - 101)) := by
  induction inputs using List.reverseRecOn with
  | nil =>
    refine ⟨⟨n, hn⟩, ?_⟩
    cases first with
    | none => exact .inl ⟨rfl, rfl, rfl⟩
    | some sequence =>
      refine .inr ⟨sequence, ⟨rfl, rfl⟩, fun _ h => Option.some.inj h, nofun⟩
  | append_singleton inputs input ih =>
    obtain ⟨⟨m, hm⟩, hcase⟩ := ih
    have hrun : recovered codec eventType gameId table first (inputs ++ [input]) =
        ((recoveryStep codec eventType gameId
            (recovered codec eventType gameId table first inputs).1 input).1,
          (recovered codec eventType gameId table first inputs).2 ++
            (recoveryStep codec eventType gameId
              (recovered codec eventType gameId table first inputs).1 input).2) :=
      recover_append _ _ _
    rw [hrun]
    refine ⟨numbered_step hm input, ?_⟩
    have hlater : ∀ length, FirstPage codec eventType gameId table inputs length →
        FirstPage codec eventType gameId table (inputs ++ [input]) length := by
      rintro length ⟨before, after, rfl, hnone, hsome, hlength⟩
      exact ⟨before, after ++ [input], by rw [List.append_assoc, List.cons_append], hnone, hsome,
        hlength⟩
    rcases hcase with ⟨rfl, hcursor, hitems⟩ | ⟨skipped, hsegment, hfirst, hpage⟩
    · cases input with
      | append game events now =>
        refine .inl ⟨rfl, hcursor, ?_⟩
        rw [hitems]
        rfl
      | poll =>
        rcases segment_first eventType hcursor hm with ⟨hnone, hsame⟩ | ⟨hsome, hsegment⟩
        · refine .inl ⟨rfl, ?_, ?_⟩
          · rw [hsame]
            exact hcursor
          · rw [hnone, hitems, List.append_nil]
        · refine .inr ⟨m - 101, ?_, nofun, fun _ => ⟨?_, m, ?_, rfl⟩⟩
          · rw [hitems, List.nil_append]
            exact hsegment
          · rw [hitems, List.nil_append]
            exact hsome
          · refine ⟨inputs, [], rfl, hitems, ?_, (eventLog_length hm).symm⟩
            rw [hrun, hitems, List.nil_append]
            exact hsome
    · refine .inr ⟨skipped, ?_, hfirst, fun hnone => ?_⟩
      · cases input with
        | append game events now =>
          rw [show (recoveryStep codec eventType gameId _ (.append game events now)).2 = [] from rfl,
            List.append_nil]
          exact hsegment.append hm game events now
        | poll => exact hsegment.poll hm
      · obtain ⟨hsome, length, hpage, hskipped⟩ := hpage hnone
        exact ⟨fun hnil => hsome (List.append_eq_nil_iff.mp hnil).1, length, hlater length hpage,
          hskipped⟩

omit [DecidableEq γ] in
/-- A page that says that there are no more ends the log, and one that says there are is full. -/
theorem page_ends {rows : List (GameEventLogRecord γ ε)} {behind : Nat}
    {response : GameEventRecoveryResponse ε}
    (hitems : response.items = ((rows.drop behind).take 100).map mapEvent)
    (hmore : response.hasMore = true ↔ behind + 100 < rows.length) :
    (response.hasMore = true → response.items.length = 100) ∧
      (response.hasMore = false → response.items = (rows.drop behind).map mapEvent) := by
  constructor
  · intro h
    have hlong := hmore.mp h
    rw [hitems, List.length_map, List.length_take, List.length_drop]
    omega
  · intro h
    have hshort : rows.length ≤ behind + 100 := by
      refine Nat.not_lt.mp fun hlt => ?_
      rw [hmore.mpr hlt] at h
      cases h
    rw [hitems, List.take_of_length_le (by rw [List.length_drop]; omega)]

/-- A client that passes back the last cursor it was given gets a segment of the log, without gap or
repetition. It begins right behind the client's first cursor, or at the latest 101 events when the
first ones are returned. The next poll returns what comes behind it, up to 100 events, and when it
says that there are no more, the client has the log from its beginning on. -/
theorem events_recovered (codec : CursorCodec) (eventType : ε → String) {gameId : γ}
    {table : List (GameEventLogRecord γ ε)} {n : Nat} (hn : Numbered table gameId n)
    (first : Option Nat) (inputs : List (RecoveryInput γ ε)) :
    let (s, items) := recovered codec eventType gameId table first inputs
    (∀ sequence, decodeCursor codec (some (encodeCursor codec sequence)) =
      .ok (some (sequence : ℚ))) ∧
    ∃ skipped,
      items = (((eventLog s.table gameId).drop skipped).take items.length).map mapEvent ∧
      items.map GameEventRecoveryItem.sequence = List.range' (skipped + 1) items.length ∧
      (∀ sequence, first = some sequence → skipped = sequence) ∧
      (first = none → ∃ length, skipped = length - 101 ∧
        (items ≠ [] ∧ FirstPage codec eventType gameId table inputs length ∨
          items = [] ∧ length = (eventLog s.table gameId).length)) ∧
      ∃ response, listEvents codec s.table gameId s.cursor = .ok response ∧
        response.items =
          (((eventLog s.table gameId).drop (skipped + items.length)).take 100).map mapEvent ∧
        (response.hasMore = true → response.items.length = 100) ∧
        (response.hasMore = false →
          items ++ response.items = ((eventLog s.table gameId).drop skipped).map mapEvent) := by
  obtain ⟨⟨m, hm⟩, hcase⟩ := recovered_inv codec eventType hn first inputs
  generalize hrun : recovered codec eventType gameId table first inputs = run at hm hcase ⊢
  obtain ⟨s, items⟩ := run
  dsimp only at hm hcase ⊢
  have hlength := eventLog_length hm
  refine ⟨decodeCursor_encodeCursor codec, ?_⟩
  rcases hcase with ⟨hfirst, hcursor, hitems⟩ | ⟨skipped, hsegment, hfirst, hpage⟩
  · obtain ⟨response, hresponse, hnew, _, hmore⟩ := listEvents_eq codec hm none
    rw [behindCursor] at hnew hmore
    subst hitems
    rw [← hlength] at hnew hmore
    obtain ⟨hfull, hlast⟩ := page_ends hnew hmore
    refine ⟨(eventLog s.table gameId).length - 101, by simp, rfl, ?_,
      fun _ => ⟨_, rfl, .inr ⟨rfl, rfl⟩⟩, response, ?_, hnew, hfull, hlast⟩
    · intro sequence hsome
      rw [hfirst] at hsome
      cases hsome
    · rw [hcursor]
      exact hresponse
  · obtain ⟨response, hresponse, hnew, _, hmore⟩ :=
      listEvents_eq codec hm (some (skipped + items.length))
    rw [behindCursor] at hnew hmore
    rw [← hlength] at hmore
    obtain ⟨hfull, hlast⟩ := page_ends hnew hmore
    refine ⟨skipped, hsegment.items, ?_, hfirst, fun hnone => ?_, response, ?_, hnew, hfull, ?_⟩
    · have hsequences := segment_sequences hm skipped items.length
      have hcount := congrArg List.length hsegment.items
      rw [List.length_map] at hcount
      conv_lhs => rw [hsegment.items]
      rw [List.map_map]
      exact hsequences.trans (by rw [← hcount])
    · obtain ⟨hsome, length, hpage, hskipped⟩ := hpage hnone
      exact ⟨length, hskipped, .inl ⟨hsome, hpage⟩⟩
    · rw [hsegment.cursor]
      exact hresponse
    · intro hend
      rw [hlast hend, ← List.drop_drop]
      conv_lhs => lhs; rw [hsegment.items]
      rw [← List.map_append, List.take_append_drop]

end Runs

/-! ## One game -/

instance countableChar : Countable Char :=
  Function.Injective.countable (f := Char.toNat) fun _ _ h => Char.toNat_inj.mp h

instance countableString : Countable String :=
  Function.Injective.countable (f := String.toList) fun _ _ h => String.toList_inj.mp h

instance : Countable JsonValue := by
  let code : JsonValue → ℚ ⊕ Option String := fun value =>
    match value with
    | .number value => .inl value
    | .string value => .inr (some value)
    | .other => .inr none
  refine Function.Injective.countable (f := code) fun x y h => ?_
  cases x <;> cases y <;> simp_all [code]

/-- A number as a text, one stroke longer than the number. -/
def strokes (n : Nat) : String := String.ofList (List.replicate (n + 1) '1')

def countStrokes (text : String) : Option Nat :=
  match text.toList.length with
  | 0 => none
  | n + 1 => some n

theorem countStrokes_strokes (n : Nat) : countStrokes (strokes n) = some n := by
  simp [countStrokes, strokes]

/-- A codec whose texts are the numbers of the objects. -/
noncomputable def strokeCodec : CursorCodec :=
  let objects : Encodable (List (String × JsonValue)) := Encodable.ofCountable _
  { encode := fun fields => strokes (objects.encode fields)
    decode := fun text => (countStrokes text).bind objects.decode
    decode_encode := fun fields _ => by
      rw [countStrokes_strokes, Option.bind_some, objects.encodek]
    decode_empty := rfl }

/-- A game with two events. -/
def twoEvents : List (GameEventLogRecord Nat String) :=
  [⟨1, 2, "turn_ended", "second", 7⟩, ⟨1, 1, "dice_rolled", "first", 5⟩]

/-- The log after a third event. -/
def threeEvents : List (GameEventLogRecord Nat String) :=
  [⟨1, 1, "dice_rolled", "first", 5⟩, ⟨1, 2, "turn_ended", "second", 7⟩,
    ⟨1, 3, "turn_ended", "third", 9⟩]

theorem twoEvents_firstPage {length : Nat}
    (h : FirstPage strokeCodec (fun _ => "turn_ended") 1 twoEvents [.poll, .append 1 ["third"] 9]
      length) : length = 2 := by
  obtain ⟨before, after, hinputs, _, _, rfl⟩ := h
  cases before with
  | nil => rfl
  | cons input before =>
    obtain ⟨_, hinputs⟩ := List.cons.inj hinputs
    cases before with
    | nil => cases hinputs
    | cons input before =>
      obtain ⟨_, hinputs⟩ := List.cons.inj hinputs
      simp at hinputs

/-- A client without a cursor polls, an event is appended, and it polls again: it has all three. -/
theorem twoEvents_recovered :
    (recovered strokeCodec (fun _ => "turn_ended") 1 twoEvents none
      [.poll, .append 1 ["third"] 9, .poll]).2 = threeEvents.map mapEvent := by
  have hnumbered : Numbered twoEvents 1 2 := List.Perm.swap 1 2 []
  have h := events_recovered strokeCodec (fun _ => "turn_ended") hnumbered none
    [.poll, .append 1 ["third"] 9]
  have htable : (recovered strokeCodec (fun _ => "turn_ended") 1 twoEvents none
      [.poll, .append 1 ["third"] 9]).1.table =
        appendEvents (fun _ => "turn_ended") twoEvents 1 ["third"] 9 := by
    refine congrArg (fun table => appendEvents (fun _ => "turn_ended") table 1 ["third"] 9) ?_
    exact recoveryStep_poll_table _
  have hpoll : (recovered strokeCodec (fun _ => "turn_ended") 1 twoEvents none
      [.poll, .append 1 ["third"] 9, .poll]).2 =
        (recovered strokeCodec (fun _ => "turn_ended") 1 twoEvents none
          [.poll, .append 1 ["third"] 9]).2 ++
        (recoveryStep strokeCodec (fun _ => "turn_ended") 1
          (recovered strokeCodec (fun _ => "turn_ended") 1 twoEvents none
            [.poll, .append 1 ["third"] 9]).1 .poll).2 :=
    congrArg Prod.snd (recover_append _ [.poll, .append 1 ["third"] 9] .poll)
  rw [hpoll]
  generalize recovered strokeCodec (fun _ => "turn_ended") 1 twoEvents none
    [.poll, .append 1 ["third"] 9] = run at h htable ⊢
  obtain ⟨s, items⟩ := run
  have hlog : eventLog s.table 1 = threeEvents := by
    rw [show s.table = _ from htable]
    decide
  obtain ⟨_, skipped, _, _, _, hfirst, response, hresponse, hnew, hfull, hall⟩ := h
  rw [hlog] at hfirst hnew hall
  obtain ⟨length, hskipped, hcase⟩ := hfirst rfl
  have hbegin : skipped = 0 := by
    rcases hcase with ⟨_, hpage⟩ | ⟨_, hlength⟩
    · rw [hskipped, twoEvents_firstPage hpage]
    · rw [hskipped, hlength]
      rfl
  have hend : response.hasMore = false := by
    refine Bool.eq_false_iff.mpr fun hmore => ?_
    have hmany := hfull hmore
    rw [hnew, List.length_map, List.length_take, List.length_drop] at hmany
    change min 100 (3 - _) = 100 at hmany
    omega
  have hanswer : (recoveryStep strokeCodec (fun _ => "turn_ended") 1 s .poll).2 =
      response.items := by
    simp only [recoveryStep, hresponse]
  rw [hanswer, hall hend, hbegin, List.drop_zero]

end Rules
end LivePoly
