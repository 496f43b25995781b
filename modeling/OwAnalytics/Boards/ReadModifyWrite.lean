/-
  OwAnalytics.Boards.ReadModifyWrite

  A client that reads a board and puts back what it has read.  `MergeNotes` cannot tell
  the notes it is given from new ones: each time, all notes of the board are added to it
  once more, under the name of whoever sent them, and nothing else of it changes but the
  time of the modification.
-/

import OwAnalytics.Boards.Store

namespace OwAnalytics.Boards

open AnalyticsObjects ProvObjects SecurityObjects Document
open Venue (firstVenue)
open Venue.BoardRequests (hasExactlyOneVenue)

variable {F : Type} {L : JsonLibrary F}

/-! ## A body that says what is stored -/

/-- The notes as they are added again. -/
def restamp (email : Str) (now : UInt64) (notes : List NoteInfo) : List NoteInfo :=
  notes.map fun n => { created := now, createdBy := email, note := n.note }

/-- The board after its own representation is put. -/
def notesAgain (b : BoardInfo) (email : Str) (now : UInt64) : BoardInfo :=
  if b.info.name.isEmpty then b
  else
    { b with info :=
      { b.info with notes := b.info.notes ++ restamp email now b.info.notes, modified := now } }

section Body

variable {d : Document F} {email : Str} {now : UInt64}

theorem overwrite_eq {field : String} {s : Str} (h : d.find? field = some (L.reread (.str s)))
    (v : Str) : overwrite L.toPoco d field v = some s := by
  rw [JsonLibrary.reread, reread] at h
  rw [overwrite, h]
  rfl

/-- All notes of a board are taken for new ones. -/
theorem mergeNotes_eq (hL : L.Inverts) {own : List NoteInfo}
    (h : d.find? "notes" = some (L.reread (.arr (own.map NoteInfo.toJson))))
    (notes : List NoteInfo) :
    mergeNotes L.toPoco d email now notes = notes ++ restamp email now own := by
  rw [JsonLibrary.reread, reread, rereadItems_eq_map] at h
  rw [mergeNotes, h]
  dsimp only
  -- every element is an object, so the loop goes through the whole list
  rw [List.takeWhile_eq_self_iff.mpr]
  · congr 1
    rw [restamp, List.map_map, List.map_map]
    apply List.map_congr_left
    intro n _
    have hnote : (NoteInfo.fromJson L.toPoco (L.reread (NoteInfo.toJson n))).1 = n := by
      rw [NoteInfo.fromJson_toJson hL]
    exact congrArg
      (fun m : NoteInfo => { created := now, createdBy := email, note := m.note : NoteInfo })
      hnote
  · intro i hi
    obtain ⟨written, hwritten, rfl⟩ := List.mem_map.mp hi
    obtain ⟨n, -, rfl⟩ := List.mem_map.mp hwritten
    rfl

/-- `UpdateObjectInfo` with the representation of the board itself. -/
theorem updateObjectInfo_notesAgain (hL : L.Inverts) (b : BoardInfo) (email : Str) (now : UInt64) :
    ∃ ok, updateObjectInfo L.toPoco (L.reread (BoardInfo.toJson b)) email now b.info =
      some (ok, (notesAgain b email now).info) := by
  obtain ⟨body, hbody⟩ : ∃ body, body = L.reread (BoardInfo.toJson b) := ⟨_, rfl⟩
  have h := JsonLibrary.find?_reread hbody (List.Subset.refl _) (by dsimp only [List.map]; decide)
  simp only [List.forall_mem_cons] at h
  obtain ⟨-, hname, hdescription, -, -, hnotes, -⟩ := h
  rw [← hbody, updateObjectInfo, overwrite_eq hname, notesAgain]
  by_cases hnameless : b.info.name.isEmpty = true
  · rw [if_pos hnameless]
    refine ⟨false, ?_⟩
    simp only [Option.bind_eq_bind, Option.bind_some, if_pos hnameless]
    rfl
  · rw [if_neg hnameless]
    refine ⟨true, ?_⟩
    simp only [Option.bind_eq_bind, Option.bind_some, if_neg hnameless, overwrite_eq hdescription,
      mergeNotes_eq hL hnotes]
    rfl

theorem contains_venueList (b : BoardInfo) :
    (L.reread (BoardInfo.toJson b)).contains "venueList" = true := by
  obtain ⟨body, hbody⟩ : ∃ body, body = L.reread (BoardInfo.toJson b) := ⟨_, rfl⟩
  have h := JsonLibrary.find?_reread hbody (List.Subset.refl _) (by dsimp only [List.map]; decide)
  simp only [List.forall_mem_cons] at h
  obtain ⟨-, -, -, -, -, -, -, hvenues, -⟩ := h
  rw [← hbody, contains, hvenues]
  rfl

end Body

theorem storable_of_hasExactlyOneVenue {b : BoardInfo} (htags : b.info.tags = [])
    (h : hasExactlyOneVenue b = true) : Storable b := by
  rw [hasExactlyOneVenue, Bool.and_eq_true, beq_iff_eq] at h
  obtain ⟨v, hv⟩ := List.length_eq_one_iff.mp h.1
  refine ⟨htags, .inr ⟨v, hv, fun hid => ?_⟩⟩
  simp [firstVenue, hv, hid] at h

theorem hasExactlyOneVenue_notesAgain (b : BoardInfo) (email : Str) (now : UInt64) :
    hasExactlyOneVenue (notesAgain b email now) = hasExactlyOneVenue b := by
  unfold notesAgain
  split <;> rfl

/-! ## Put back once -/

namespace BoardHandler

variable {works : Statement → Bool} {records : List BoardRecord} {id : Str} {b : BoardInfo}

/-- What a client does: it reads the board and puts back what it has read. -/
def putBack (L : JsonLibrary F) (id : Str) (records : List BoardRecord)
    (turn : (Statement → Bool) × Str × UInt64) : List BoardRecord :=
  match (handle L turn.1 records (.get id)).1 with
  | .object d =>
      (handle L turn.1 records (.put id (L.parse (L.stringify d)) turn.2.1 turn.2.2)).2
  | _ => records

/-- The board is read and written in a turn. -/
def Works (turn : (Statement → Bool) × Str × UInt64) : Bool :=
  turn.1 .getRecord && turn.1 .updateRecord

theorem putVenues_own (hone : hasExactlyOneVenue b = true) :
    putVenues (L.reread (BoardInfo.toJson b)) b b = .ok b.venueList := by
  simp [putVenues, contains_venueList, hone]

theorem putVenues_refused (hone : hasExactlyOneVenue b = false) :
    putVenues (L.reread (BoardInfo.toJson b)) b b =
      .error (.badRequest Errors.venueMustExist []) := by
  simp [putVenues, contains_venueList, hone]

/-- One turn: the notes are added if the board has one venue and both statements work. -/
theorem getRecord_putBack (hL : L.Inverts) (hid : id ≠ [])
    (hb : BoardTable.getRecord L records id = some b) (turn : (Statement → Bool) × Str × UInt64) :
    BoardTable.getRecord L (putBack L id records turn) id =
      some (if Works turn && hasExactlyOneVenue b then notesAgain b turn.2.1 turn.2.2 else b) := by
  obtain ⟨works, email, now⟩ := turn
  rw [putBack]
  show BoardTable.getRecord L (match doGet L works records id with
    | .object d => (doPut L works records id (L.parse (L.stringify d)) email now).2
    | _ => records) id = _
  have hnonempty : ¬ id.isEmpty = true := by simpa using hid
  have hworks : Works (works, email, now) = (works .getRecord && works .updateRecord) := rfl
  cases hread : works .getRecord with
  | false =>
    rw [doGet, if_neg hnonempty, getRecord, hread]
    simpa [hworks, hread] using hb
  | true =>
    -- the body that is sent is the text of the board as it was read
    have hget : getRecord L works .getRecord records id = some b := by
      rw [getRecord, if_pos hread, hb]
    have hbody : (L.parse (L.stringify (BoardInfo.toJson b))).bind
        (fun d => (BoardInfo.fromJson L.toPoco d).map (d, ·)) =
          some (L.reread (BoardInfo.toJson b), b) := by
      rw [hL.parse_stringify (BoardInfo.ordered_toJson b), Option.bind_some,
        BoardInfo.fromJson_toJson hL, Option.map_some]
    obtain ⟨ok, hinfo⟩ := updateObjectInfo_notesAgain hL b email now
    rw [doGet, if_neg hnonempty, hget]
    dsimp only
    rw [doPut, if_neg hnonempty, hget]
    dsimp only
    rw [hbody]
    dsimp only
    rw [hinfo]
    dsimp only
    -- only a board of exactly one venue is written
    cases hone : hasExactlyOneVenue b with
    | false =>
      rw [putVenues_refused hone, Bool.and_false, if_neg Bool.false_ne_true]
      exact hb
    | true =>
      rw [putVenues_own hone]
      dsimp only
      cases hwrite : works .updateRecord with
      | false =>
        rw [if_neg Bool.false_ne_true, hworks, hwrite, Bool.and_false, Bool.false_and,
          if_neg Bool.false_ne_true]
        exact hb
      | true =>
        rw [if_pos rfl, hworks, hread, hwrite, Bool.and_true, Bool.and_true, if_pos rfl]
        have hsame : (notesAgain b email now).info.id = id := by
          rw [← id_of_getRecord hb, notesAgain]
          split <;> rfl
        have hvenues : (notesAgain b email now).venueList = b.venueList := by
          rw [notesAgain]
          split <;> rfl
        have hboard :
            ({ info := (notesAgain b email now).info, venueList := b.venueList } : BoardInfo) =
            notesAgain b email now := by
          rw [← hvenues]
        have htags : (notesAgain b email now).info.tags = [] := by
          rw [← tags_of_getRecord hb, notesAgain]
          split <;> rfl
        have hstorable : Storable (notesAgain b email now) :=
          storable_of_hasExactlyOneVenue htags
            ((hasExactlyOneVenue_notesAgain b email now).trans hone)
        dsimp only
        rw [hboard, hsame, getRecord_updateRecord hsame, if_pos rfl, hb, Option.map_some,
          hstorable.toBoard_ofBoard hL]

/-! ## Put back again and again -/

/-- The board after some turns. -/
theorem getRecord_foldl_putBack (hL : L.Inverts) (hid : id ≠ [])
    (hb : BoardTable.getRecord L records id = some b)
    (turns : List ((Statement → Bool) × Str × UInt64)) :
    BoardTable.getRecord L (turns.foldl (putBack L id) records) id =
      some (if hasExactlyOneVenue b then
        (turns.filter Works).foldl (fun b turn => notesAgain b turn.2.1 turn.2.2) b
      else b) := by
  induction turns generalizing records b with
  | nil =>
    rw [List.foldl_nil, hb, List.filter_nil, List.foldl_nil, ite_self]
  | cons turn rest ih =>
    rw [List.foldl_cons, ih (getRecord_putBack hL hid hb turn), List.filter_cons]
    cases hworks : Works turn with
    | false => simp
    | true =>
      cases hone : hasExactlyOneVenue b with
      | false => simp [hone]
      | true => simp [hone, hasExactlyOneVenue_notesAgain]

/-- What turns that work do to a board with a name. -/
theorem foldl_notesAgain (hname : b.info.name ≠ [])
    (turns : List ((Statement → Bool) × Str × UInt64)) :
    ∃ notes,
      turns.foldl (fun b turn => notesAgain b turn.2.1 turn.2.2) b =
        { b with info :=
          { b.info with
            notes := b.info.notes ++ notes
            modified := (turns.getLast?).elim b.info.modified fun turn => turn.2.2 } } ∧
      (b.info.notes ++ notes).map NoteInfo.note =
        (fun texts => texts ++ texts)^[turns.length] (b.info.notes.map NoteInfo.note) := by
  induction turns generalizing b with
  | nil => exact ⟨[], by simp, by simp⟩
  | cons turn rest ih =>
    have hput : notesAgain b turn.2.1 turn.2.2 =
        { b with info :=
          { b.info with
            notes := b.info.notes ++ restamp turn.2.1 turn.2.2 b.info.notes
            modified := turn.2.2 } } := by
      rw [notesAgain, if_neg (by simpa using hname)]
    obtain ⟨notes, hboard, htexts⟩ :=
      ih (b := notesAgain b turn.2.1 turn.2.2) (by rw [hput]; exact hname)
    refine ⟨restamp turn.2.1 turn.2.2 b.info.notes ++ notes, ?_, ?_⟩
    · rw [List.foldl_cons, hboard, hput]
      cases hlast : rest.getLast? with
      | none => simp [List.getLast?_cons, hlast]
      | some last => simp [List.getLast?_cons, hlast]
    · rw [hput] at htexts
      rw [← List.append_assoc, htexts, List.length_cons, Function.iterate_succ_apply]
      -- one turn doubles the texts
      congr 1
      rw [List.map_append, restamp, List.map_map]
      rfl

theorem foldl_notesAgain_nameless (hname : b.info.name = [])
    (turns : List ((Statement → Bool) × Str × UInt64)) :
    turns.foldl (fun b turn => notesAgain b turn.2.1 turn.2.2) b = b := by
  induction turns with
  | nil => rfl
  | cons turn rest ih =>
    rw [List.foldl_cons, notesAgain, if_pos (by simpa using hname)]
    exact ih

/-- A board that clients read and put back, each with the statements that work for it: if it has a
    name and one venue, each turn that is read and written adds all notes again after those that
    are there, in the same order; its other fields stay, but for the time of the modification.
    Any other board stays as it is. -/
theorem notes_double (hL : L.Inverts) (hid : id ≠ [])
    (hb : BoardTable.getRecord L records id = some b)
    (turns : List ((Statement → Bool) × Str × UInt64)) :
    let after := BoardTable.getRecord L (turns.foldl (putBack L id) records) id
    (hasExactlyOneVenue b = true → b.info.name ≠ [] →
      ∃ notes,
        after = some
          { b with info :=
            { b.info with
              notes := b.info.notes ++ notes
              modified :=
                ((turns.filter Works).getLast?).elim b.info.modified fun turn => turn.2.2 } } ∧
        (b.info.notes ++ notes).map NoteInfo.note =
          (fun texts => texts ++ texts)^[(turns.filter Works).length]
            (b.info.notes.map NoteInfo.note)) ∧
    (hasExactlyOneVenue b = false ∨ b.info.name = [] → after = some b) := by
  intro after
  have hafter : after = _ := getRecord_foldl_putBack hL hid hb turns
  refine ⟨fun hone hname => ?_, fun hother => ?_⟩
  · obtain ⟨notes, hboard, htexts⟩ := foldl_notesAgain hname (turns.filter Works)
    refine ⟨notes, ?_, htexts⟩
    rw [hafter, if_pos hone, hboard]
  · rw [hafter]
    rcases hother with hone | hname
    · rw [if_neg (by simp [hone])]
    · rw [foldl_notesAgain_nameless hname, ite_self]

/-- Two turns of one user make four notes of one. -/
theorem notes_double_twice :
    let b : BoardInfo :=
      { info := { id := ['b'], name := ['n'], notes := [{ note := ['x'] }] }
        venueList := [{ id := ['v'] }] }
    ∃ b', BoardTable.getRecord JsonText.library
        ([(fun _ => true, ['u'], 5), (fun _ => true, ['u'], 6)].foldl
          (putBack JsonText.library ['b']) [BoardRecord.ofBoard JsonText.library b]) ['b'] =
        some b' ∧
      b'.info.notes.map NoteInfo.note = [['x'], ['x'], ['x'], ['x']] := by
  intro b
  have hstorable : Storable b := ⟨rfl, .inr ⟨_, rfl, by decide⟩⟩
  have hb : BoardTable.getRecord JsonText.library [BoardRecord.ofBoard JsonText.library b] ['b'] =
      some b :=
    congrArg some (hstorable.toBoard_ofBoard JsonText.inverts_library)
  obtain ⟨notes, hafter, htexts⟩ := (notes_double JsonText.inverts_library (by decide) hb
    [(fun _ => true, ['u'], 5), (fun _ => true, ['u'], 6)]).1 rfl (by decide)
  exact ⟨_, hafter, htexts⟩

end BoardHandler

end OwAnalytics.Boards
