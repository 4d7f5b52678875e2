import Mathlib.Data.List.Forall2
import Uncaught.Proofs.Json.Arrange
import Uncaught.Proofs.Json.Reading

/-
  Written values are read back: the text of a plain value is
  read as that value, with the fields of its objects in the
  order of their names.

  Key definitions include:
    * `Json.fieldText`

  Main declarations:
    * `Json.reads_arr`
    * `Json.reads_obj`
    * `Json.reads_block`
    * `Json.parse_toIndented`
    * `Json.reads_line`
    * `Json.parse_toLine`
-/

namespace Uncaught

namespace Json

open Printer Reader

variable {rest : List Char}

------------------------------------------------------------
-- Pieces
------------------------------------------------------------

variable {first gap last : List Char}

theorem separated_cons_cons
    (sep p q : List Char)
    (ps : List (List Char)) :
    separated sep (p :: q :: ps) =
      p ++ (sep ++ separated sep (q :: ps)) := by
  rw [separated, List.append_assoc]
  intro hNone
  cases hNone

/- Pieces begin as the first of them does. -/
theorem exists_separated_eq
    (sep : List Char)
    (c : Char)
    (tail : List Char)
    (ps : List (List Char)) :
    ∃ more, separated sep ((c :: tail) :: ps) = c :: more := by
  cases ps with
  | nil => exact ⟨tail, rfl⟩
  | cons q ps =>
      rw [separated_cons_cons]
      exact ⟨_, rfl⟩

------------------------------------------------------------
-- Arrays
------------------------------------------------------------

variable {fuel : Nat} {v : Json} {items : List Json}

theorem elements_succ
    (fuel : Nat)
    (cs : List Char) :
    elements (fuel + 1) cs = (do
      let (item, rest) ← value fuel cs
      match skip rest with
      | ',' :: rest => do
          let (items, rest) ← elements fuel (skip rest)
          some (item :: items, rest)
      | ']' :: rest => some ([item], rest)
      | _ => none) :=
  rfl

theorem elements_last
    {cs after : List Char}
    (hValue : value fuel cs = some (v, after))
    (hAfter : skip after = ']' :: rest) :
    elements (fuel + 1) cs = some ([v], rest) := by
  rw [elements_succ, hValue]
  simp only [Option.bind_eq_bind, Option.bind_some, hAfter]

theorem elements_more
    {cs after more : List Char}
    (hValue : value fuel cs = some (v, after))
    (hAfter : skip after = ',' :: more)
    (hMore : elements fuel (skip more) = some (items, rest)) :
    elements (fuel + 1) cs = some (v :: items, rest) := by
  rw [elements_succ, hValue]
  simp only [Option.bind_eq_bind, Option.bind_some, hAfter,
    hMore]

/- The pieces between brackets are the items of an array. -/
theorem elements_separated
    {pieces : List (List Char)}
    (hPieces : List.Forall₂ Reads pieces items)
    (hSome : pieces ≠ [])
    (hGap : Blank gap)
    (hLast : Blank last)
    (hFuel : (separated (',' :: gap) pieces).length < fuel) :
    elements fuel
      (separated (',' :: gap) pieces ++ (last ++ ']' :: rest)) =
      some (items, rest) := by
  -- every item takes one step and at least one character, so
  -- that the fuel for the rest is still above its length
  induction hPieces generalizing fuel with
  | nil => exact absurd rfl hSome
  | @cons piece v pieces items hHead hTail ih =>
      cases fuel with
      | zero => cases hFuel
      | succ fuel =>
          cases hTail with
          | nil =>
              apply elements_last
              · apply hHead.value_append fuel _
                  (Nat.le_of_lt_succ hFuel)
                exact ends_append hLast (ends_cons (by decide))
              · rw [skip_append hLast, skip_cons rfl]
          | @cons next w more others hNext hMore =>
              rcases hNext.opens with
                ⟨c, tail, rfl, hSpace, -⟩
              simp only [separated_cons_cons, List.append_assoc,
                List.cons_append, List.length_append,
                List.length_cons] at hFuel ⊢
              apply elements_more
              · apply hHead.value_append fuel _ (by omega)
                exact ends_cons (by decide)
              · exact skip_cons rfl
              · rw [skip_append hGap]
                have hItems := ih (by simp) (by omega : _ < fuel)
                rcases exists_separated_eq (',' :: gap) c tail
                    more with
                  ⟨others, hBegin⟩
                rw [hBegin, List.cons_append] at hItems ⊢
                rwa [skip_cons hSpace]

/- A bracket opens an array. -/
theorem value_bracket
    (fuel : Nat)
    (cs : List Char) :
    value (fuel + 1) ('[' :: cs) =
      (match skip cs with
      | ']' :: rest => some (arr [], rest)
      | rest => do
          let (items, rest) ← elements fuel rest
          some (arr items, rest)) :=
  rfl

theorem value_arr_nil
    {cs : List Char}
    (hSkip : skip cs = ']' :: rest) :
    value (fuel + 1) ('[' :: cs) = some (arr [], rest) := by
  rw [value_bracket, hSkip]
  rfl

theorem value_arr
    {c : Char}
    {cs tail : List Char}
    (hSkip : skip cs = c :: tail)
    (hClosing : c ≠ ']')
    (hElements : elements fuel (c :: tail) = some (items, rest)) :
    value (fuel + 1) ('[' :: cs) = some (arr items, rest) := by
  rw [value_bracket, hSkip]
  split
  · next hSame =>
      cases hSame
      exact absurd rfl hClosing
  · simp only [hElements, Option.bind_eq_bind,
      Option.bind_some]

/- An array is read, with blanks around its items. -/
theorem reads_arr
    {pieces : List (List Char)}
    (hPieces : List.Forall₂ Reads pieces items)
    (hFirst : Blank first)
    (hGap : Blank gap)
    (hLast : Blank last) :
    Reads
      ('[' :: (first ++
        (separated (',' :: gap) pieces ++ (last ++ [']']))))
      (arr items) := by
  apply Reads.of_cons (by decide) (by decide)
  intro fuel rest hFuel _
  simp only [List.append_assoc, List.singleton_append,
    List.length_append, List.length_cons] at hFuel ⊢
  cases hPieces with
  | nil =>
      apply value_arr_nil
      rw [skip_append hFirst, separated, List.nil_append,
        skip_append hLast, skip_cons rfl]
  | @cons piece v pieces items hHead hTail =>
      have hElements :
          elements fuel
            (separated (',' :: gap) (piece :: pieces) ++
              (last ++ ']' :: rest)) =
            some (v :: items, rest) :=
        elements_separated (.cons hHead hTail) (by simp) hGap
          hLast (by omega)
      rcases hHead.opens with ⟨c, tail, rfl, hSpace, hClosing⟩
      rcases exists_separated_eq (',' :: gap) c tail pieces with
        ⟨more, hBegin⟩
      rw [hBegin, List.cons_append] at hElements ⊢
      apply value_arr _ hClosing hElements
      rw [skip_append hFirst, skip_cons hSpace]

------------------------------------------------------------
-- Objects
------------------------------------------------------------

variable {char : Char → List Char}
variable {fields : List (String × Json)}

/- The text of a field: its name in quotes, and its value. -/
def fieldText
    (char : Char → List Char)
    (field : String × List Char) : List Char :=
  quote char field.1 ++ ':' :: ' ' :: field.2

theorem fieldText_append
    (key : String)
    (piece after : List Char) :
    fieldText char (key, piece) ++ after =
      '"' :: (key.toList.flatMap char ++
        '"' :: ':' :: ' ' :: (piece ++ after)) := by
  simp [fieldText, quote]

/- The blank before the value of a field is skipped. -/
theorem Reads.skip_append
    {piece : List Char}
    (hPiece : Reads piece v)
    (after : List Char) :
    skip (' ' :: (piece ++ after)) = piece ++ after := by
  rcases hPiece.opens with ⟨c, tail, rfl, hSpace, -⟩
  exact skip_cons hSpace

/- A quote opens the name of a field. -/
theorem members_quote
    (fuel : Nat)
    (cs : List Char) :
    members (fuel + 1) ('"' :: cs) = (do
      let (key, rest) ← string cs
      let ':' :: rest := skip rest | none
      let (item, rest) ← value fuel (skip rest)
      match skip rest with
      | ',' :: rest => do
          let (fields, rest) ← members fuel (skip rest)
          some ((key, item) :: fields, rest)
      | '\x7d' :: rest => some ([(key, item)], rest)
      | _ => none) :=
  rfl

theorem members_last
    (hFaithful : Faithful char)
    {key : String}
    {piece after : List Char}
    (hPiece : Reads piece v)
    (hFuel : piece.length ≤ fuel)
    (hEnds : Ends after)
    (hAfter : skip after = '\x7d' :: rest) :
    members (fuel + 1) (fieldText char (key, piece) ++ after) =
      some ([(key, v)], rest) := by
  rw [fieldText_append, members_quote]
  simp only [string_quoted hFaithful, Option.bind_eq_bind,
    Option.bind_some, skip_cons (c := ':') rfl,
    hPiece.skip_append, hAfter,
    hPiece.value_append fuel after hFuel hEnds]

theorem members_more
    (hFaithful : Faithful char)
    {key : String}
    {piece after more : List Char}
    (hPiece : Reads piece v)
    (hFuel : piece.length ≤ fuel)
    (hEnds : Ends after)
    (hAfter : skip after = ',' :: more)
    (hMore : members fuel (skip more) = some (fields, rest)) :
    members (fuel + 1) (fieldText char (key, piece) ++ after) =
      some ((key, v) :: fields, rest) := by
  rw [fieldText_append, members_quote]
  simp only [string_quoted hFaithful, Option.bind_eq_bind,
    Option.bind_some, skip_cons (c := ':') rfl,
    hPiece.skip_append, hAfter, hMore,
    hPiece.value_append fuel after hFuel hEnds]

theorem length_lt_length_fieldText
    (char : Char → List Char)
    (field : String × List Char) :
    field.2.length < (fieldText char field).length := by
  simp only [fieldText, List.length_append, List.length_cons]
  omega

/- Fields begin with the quote of the first name. -/
theorem exists_separated_fieldText_eq
    (char : Char → List Char)
    (sep : List Char)
    (field : String × List Char)
    (written : List (String × List Char)) :
    ∃ more,
      separated sep
        ((field :: written).map (fieldText char)) =
        '"' :: more :=
  exists_separated_eq sep '"' _ _

/- The pieces between braces are the fields of an object. -/
theorem members_separated
    (hFaithful : Faithful char)
    {written : List (String × List Char)}
    (hWritten :
      List.Forall₂
        (fun piece field =>
          piece.1 = field.1 ∧ Reads piece.2 field.2)
        written fields)
    (hSome : written ≠ [])
    (hGap : Blank gap)
    (hLast : Blank last)
    (hFuel :
      (separated (',' :: gap)
        (written.map (fieldText char))).length < fuel) :
    members fuel
      (separated (',' :: gap) (written.map (fieldText char)) ++
        (last ++ '\x7d' :: rest)) =
      some (fields, rest) := by
  induction hWritten generalizing fuel with
  | nil => exact absurd rfl hSome
  | @cons piece field written fields hHead hTail ih =>
      obtain ⟨key, piece⟩ := piece
      obtain ⟨key', v⟩ := field
      obtain ⟨hKey, hPiece⟩ := hHead
      cases hKey
      have hShorter :
          piece.length < (fieldText char (key, piece)).length :=
        length_lt_length_fieldText char (key, piece)
      cases fuel with
      | zero => cases hFuel
      | succ fuel =>
          cases hTail with
          | nil =>
              simp only [List.map_cons, List.map_nil,
                separated] at hFuel ⊢
              have hEnough : piece.length ≤ fuel := by omega
              apply members_last hFaithful hPiece hEnough
              · exact ends_append hLast (ends_cons (by decide))
              · rw [skip_append hLast, skip_cons rfl]
          | @cons next field more others hNext hMore =>
              rcases exists_separated_fieldText_eq char
                  (',' :: gap) next more with
                ⟨tail, hBegin⟩
              simp only [List.map_cons] at ih hFuel hBegin ⊢
              simp only [separated_cons_cons, List.append_assoc,
                List.cons_append, List.length_append,
                List.length_cons] at hFuel ⊢
              have hEnough : piece.length ≤ fuel := by omega
              have hFields := ih (by simp) (by omega : _ < fuel)
              apply members_more hFaithful hPiece hEnough
              · exact ends_cons (by decide)
              · exact skip_cons rfl
              · rw [skip_append hGap]
                rw [hBegin, List.cons_append] at hFields ⊢
                rwa [skip_cons rfl]

theorem put_eq_insert
    (key : String)
    (value : Json)
    (fields : List (String × Json)) :
    put key value fields = Entries.insert key value fields := by
  induction fields with
  | nil => rfl
  | cons field fields ih =>
      obtain ⟨k, v⟩ := field
      rw [put, Entries.insert, ih]
      by_cases hSame : k = key
      · subst hSame
        simp
      · simp [hSame]

/- Fields with distinct names are set one after the other. -/
theorem foldl_put
    (hNames : (fields.map Prod.fst).Nodup) :
    fields.foldl (fun acc kv => put kv.1 kv.2 acc) [] =
      fields := by
  simp only [put_eq_insert]
  exact (Table.entries_foldl_insert_eq fields .empty).symm.trans
    (Table.entries_ofList hNames)

/- A brace opens an object. -/
theorem value_brace
    (fuel : Nat)
    (cs : List Char) :
    value (fuel + 1) ('\x7b' :: cs) =
      (match skip cs with
      | '\x7d' :: rest => some (obj [], rest)
      | rest => do
          let (fields, rest) ← members fuel rest
          some (obj (fields.foldl
            (fun acc kv => put kv.1 kv.2 acc) []), rest)) :=
  rfl

theorem value_obj_nil
    {cs : List Char}
    (hSkip : skip cs = '\x7d' :: rest) :
    value (fuel + 1) ('\x7b' :: cs) = some (obj [], rest) := by
  rw [value_brace, hSkip]
  rfl

theorem value_obj
    {cs tail : List Char}
    (hSkip : skip cs = '"' :: tail)
    (hMembers : members fuel ('"' :: tail) = some (fields, rest))
    (hNames : (fields.map Prod.fst).Nodup) :
    value (fuel + 1) ('\x7b' :: cs) =
      some (obj fields, rest) := by
  have hSet :
      fields.foldl (fun acc kv => put kv.1 kv.2 acc) [] =
        fields :=
    foldl_put hNames
  rw [value_brace, hSkip]
  split
  · next hSame => cases hSame
  · simp only [hMembers, Option.bind_eq_bind, Option.bind_some,
      hSet]

/- An object is read, with blanks around its fields. -/
theorem reads_obj
    (hFaithful : Faithful char)
    {written : List (String × List Char)}
    (hWritten :
      List.Forall₂
        (fun piece field =>
          piece.1 = field.1 ∧ Reads piece.2 field.2)
        written fields)
    (hNames : (fields.map Prod.fst).Nodup)
    (hFirst : Blank first)
    (hGap : Blank gap)
    (hLast : Blank last) :
    Reads
      ('\x7b' :: (first ++
        (separated (',' :: gap) (written.map (fieldText char)) ++
          (last ++ ['\x7d']))))
      (obj fields) := by
  apply Reads.of_cons (by decide) (by decide)
  intro fuel rest hFuel _
  simp only [List.append_assoc, List.singleton_append,
    List.length_append, List.length_cons] at hFuel ⊢
  cases hWritten with
  | nil =>
      apply value_obj_nil
      rw [skip_append hFirst, List.map_nil, separated,
        List.nil_append, skip_append hLast, skip_cons rfl]
  | @cons piece field written fields hHead hTail =>
      have hMembers :
          members fuel
            (separated (',' :: gap)
              ((piece :: written).map (fieldText char)) ++
              (last ++ '\x7d' :: rest)) =
            some (field :: fields, rest) :=
        members_separated hFaithful (.cons hHead hTail)
          (by simp) hGap hLast (by omega)
      rcases exists_separated_fieldText_eq char (',' :: gap)
          piece written with
        ⟨tail, hBegin⟩
      rw [hBegin, List.cons_append] at hMembers ⊢
      apply value_obj _ hMembers hNames
      rw [skip_append hFirst, skip_cons rfl]

------------------------------------------------------------
-- Written Values
------------------------------------------------------------

/- What is made of the values does not change the order. -/
theorem byName_map
    {α β : Type}
    (f : α → β)
    (fields : List (String × α)) :
    byName (fields.map fun kv => (kv.1, f kv.2)) =
      (byName fields).map fun kv => (kv.1, f kv.2) := by
  unfold byName
  rw [List.map_mergeSort]
  intro a _ b _
  rfl

variable {write : Json → List Char}

/- An array is read if its items are. -/
theorem reads_arr_map
    (hItems :
      ∀ v ∈ items, Reads (write v) (v.arrange byName))
    (hFirst : Blank first)
    (hGap : Blank gap)
    (hLast : Blank last) :
    Reads
      ('[' :: (first ++
        (separated (',' :: gap) (items.map write) ++
          (last ++ [']']))))
      ((arr items).arrange byName) := by
  rw [arrange_arr]
  apply reads_arr _ hFirst hGap hLast
  rw [List.forall₂_map_left_iff, List.forall₂_map_right_iff,
    List.forall₂_same]
  exact hItems

/- An object is read if the values of its fields are. -/
theorem reads_obj_byName
    (hFaithful : Faithful char)
    (hNames : (fields.map Prod.fst).Nodup)
    (hValues :
      ∀ kv ∈ fields,
        Reads (write kv.2) (kv.2.arrange byName))
    (hFirst : Blank first)
    (hGap : Blank gap)
    (hLast : Blank last) :
    Reads
      ('\x7b' :: (first ++
        (separated (',' :: gap)
          (((byName fields).map fun kv =>
            (kv.1, write kv.2)).map (fieldText char)) ++
          (last ++ ['\x7d']))))
      ((obj fields).arrange byName) := by
  rw [arrange_obj, byName_map]
  have hOrder := arrangement_byName fields
  apply reads_obj hFaithful _ _ hFirst hGap hLast
  · rw [List.forall₂_map_left_iff, List.forall₂_map_right_iff,
      List.forall₂_same]
    intro kv hkv
    exact ⟨rfl, hValues kv (hOrder.mem_iff.mp hkv)⟩
  · rw [List.map_map]
    exact (hOrder.map Prod.fst).nodup_iff.mpr hNames

theorem blocks_eq_map
    (depth : Nat)
    (items : List Json) :
    blocks depth items = items.map (block depth) := by
  induction items with
  | nil => rfl
  | cons v items ih => exact congrArg (block depth v :: ·) ih

theorem fieldBlocks_eq_map
    (depth : Nat)
    (fields : List (String × Json)) :
    fieldBlocks depth fields =
      fields.map fun kv => (kv.1, block depth kv.2) := by
  induction fields with
  | nil => rfl
  | cons kv fields ih =>
      exact congrArg ((kv.1, block depth kv.2) :: ·) ih

theorem block_arr
    (depth : Nat)
    (items : List Json) :
    block depth (arr items) =
      boxed depth '[' ']' (items.map (block (depth + 1))) := by
  rw [← blocks_eq_map]
  rfl

/- An object is written with its fields by name. -/
theorem block_obj
    (depth : Nat)
    (fields : List (String × Json)) :
    block depth (obj fields) =
      boxed depth '\x7b' '\x7d'
        (((byName fields).map fun kv =>
          (kv.1, block (depth + 1) kv.2)).map
            (fieldText asciiChar)) := by
  rw [← byName_map, ← fieldBlocks_eq_map]
  rfl

/- A box has its pieces with blanks around them. -/
theorem exists_boxed_eq
    (depth : Nat)
    (opening closing : Char)
    (pieces : List (List Char)) :
    ∃ first gap last, Blank first ∧ Blank gap ∧ Blank last ∧
      boxed depth opening closing pieces =
        opening :: (first ++
          (separated (',' :: gap) pieces ++
            (last ++ [closing]))) := by
  cases pieces with
  | nil =>
      exact ⟨[], [], [], blank_nil, blank_nil, blank_nil, rfl⟩
  | cons piece pieces =>
      refine ⟨newLine (depth + 1), newLine (depth + 1),
        newLine depth, blank_newLine _, blank_newLine _,
        blank_newLine _, ?_⟩
      simp [boxed]

/- A plain value is read from its indented text. -/
theorem reads_block
    {v : Json}
    (hPlain : Plain v)
    (depth : Nat) :
    Reads (block depth v) (v.arrange byName) := by
  induction hPlain generalizing depth with
  | null => exact reads_null
  | bool b =>
      cases b with
      | true => exact reads_true
      | false => exact reads_false
  | int n => exact reads_int n
  | str s => exact reads_str faithful_asciiChar s
  | @arr items hItems ih =>
      rw [block_arr]
      rcases exists_boxed_eq depth '[' ']'
          (items.map (block (depth + 1))) with
        ⟨first, gap, last, hFirst, hGap, hLast, hBoxed⟩
      rw [hBoxed]
      exact reads_arr_map (fun v hv => ih v hv (depth + 1))
        hFirst hGap hLast
  | @obj fields hNames hValues ih =>
      rw [block_obj]
      rcases exists_boxed_eq depth '\x7b' '\x7d'
          (((byName fields).map fun kv =>
            (kv.1, block (depth + 1) kv.2)).map
              (fieldText asciiChar)) with
        ⟨first, gap, last, hFirst, hGap, hLast, hBoxed⟩
      rw [hBoxed]
      exact reads_obj_byName faithful_asciiChar hNames
        (fun kv hkv => ih kv hkv (depth + 1)) hFirst hGap hLast

/- A text that is read as a value is that value. -/
theorem parse_of_reads
    {cs : List Char}
    {v : Json}
    (hReads : Reads cs v) :
    parse (String.ofList cs) = some v := by
  have hSkip : skip cs = cs := by
    rcases hReads.opens with ⟨c, tail, hOpens, hSpace, -⟩
    rw [hOpens, skip_cons hSpace]
  have hValue :=
    hReads.value_append (2 * cs.length + 1) [] (by omega)
      ends_nil
  rw [List.append_nil] at hValue
  simp only [parse, String.toList_ofList, hSkip, hValue]
  rfl

/- The text of a plain value is read as that value. -/
theorem parse_toIndented
    {v : Json}
    (hPlain : Plain v) :
    parse v.toIndented = some (v.arrange byName) :=
  parse_of_reads (reads_block hPlain 0)

------------------------------------------------------------
-- Values on One Line
------------------------------------------------------------

theorem lines_eq_map
    (char : Char → List Char)
    (items : List Json) :
    lines char items = items.map (line char) := by
  induction items with
  | nil => rfl
  | cons v items ih => exact congrArg (line char v :: ·) ih

theorem fieldLines_eq_map
    (char : Char → List Char)
    (fields : List (String × Json)) :
    fieldLines char fields =
      fields.map fun kv => (kv.1, line char kv.2) := by
  induction fields with
  | nil => rfl
  | cons kv fields ih =>
      exact congrArg ((kv.1, line char kv.2) :: ·) ih

theorem line_arr
    (char : Char → List Char)
    (items : List Json) :
    line char (arr items) =
      '[' :: separated [',', ' '] (items.map (line char)) ++
        [']'] := by
  rw [← lines_eq_map]
  rfl

/- An object is written with its fields by name. -/
theorem line_obj
    (char : Char → List Char)
    (fields : List (String × Json)) :
    line char (obj fields) =
      '\x7b' :: separated [',', ' ']
        (((byName fields).map fun kv =>
          (kv.1, line char kv.2)).map (fieldText char)) ++
            ['\x7d'] := by
  rw [← byName_map, ← fieldLines_eq_map]
  rfl

/- A plain value is read from its line. -/
theorem reads_line
    (hFaithful : Faithful char)
    {v : Json}
    (hPlain : Plain v) :
    Reads (line char v) (v.arrange byName) := by
  have hGap : Blank [' '] := by
    intro c hc
    rw [List.mem_singleton.mp hc]
    rfl
  induction hPlain with
  | null => exact reads_null
  | bool b =>
      cases b with
      | true => exact reads_true
      | false => exact reads_false
  | int n => exact reads_int n
  | str s => exact reads_str hFaithful s
  | @arr items hItems ih =>
      rw [line_arr]
      exact reads_arr_map ih blank_nil hGap blank_nil
  | @obj fields hNames hValues ih =>
      rw [line_obj]
      exact reads_obj_byName hFaithful hNames ih blank_nil hGap
        blank_nil

/- The line of a plain value is read as that value. -/
theorem parse_toLine
    {v : Json}
    (hPlain : Plain v) :
    parse v.toLine = some (v.arrange byName) :=
  parse_of_reads (reads_line faithful_plainChar hPlain)

end Json

end Uncaught
