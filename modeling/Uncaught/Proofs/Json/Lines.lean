import Uncaught.Chain
import Uncaught.Proofs.Json.RoundTrip

/-
  Values on lines of their own. No value has a control character
  in its line, whichever characters its texts have, so that a
  text of such lines falls into as many lines as there are
  values, and each line is read as its value.

  Key definitions include:
    * `Json.NoControl`

  Main declarations:
    * `Text.splitAll_ended`
    * `Json.noControl_plainChar`
    * `Json.noControl_line`
    * `Chain.lines_framed`
-/

namespace Uncaught

------------------------------------------------------------
-- Cutting Text
------------------------------------------------------------

namespace Text

variable {sep : Char}

/- A part ends at the first separator. -/
theorem splitChars_append
    {part : List Char}
    (hPart : sep ∉ part)
    (rest : List Char) :
    splitChars sep (part ++ sep :: rest) =
      part :: splitChars sep rest := by
  induction part with
  | nil => simp [splitChars]
  | cons c part ih =>
      rw [List.mem_cons, not_or] at hPart
      have hOther : (c == sep) = false := by
        simpa using Ne.symm hPart.1
      simp [splitChars, hOther, ih hPart.2]

/- Parts that a separator ends are the parts of the text. -/
theorem splitAll_ended
    {parts : List (List Char)}
    (hParts : ∀ part ∈ parts, sep ∉ part) :
    splitAll sep
        (String.ofList (parts.flatMap (· ++ [sep]))) =
      parts.map String.ofList ++ [""] := by
  rw [splitAll, String.toList_ofList]
  induction parts with
  | nil => rfl
  | cons part parts ih =>
      rw [List.forall_mem_cons] at hParts
      rw [List.flatMap_cons, List.append_assoc,
        List.singleton_append, splitChars_append hParts.1,
        List.map_cons, ih hParts.2]
      rfl

theorem count_ended
    {parts : List (List Char)}
    (hParts : ∀ part ∈ parts, sep ∉ part) :
    (parts.flatMap (· ++ [sep])).count sep = parts.length := by
  induction parts with
  | nil => rfl
  | cons part parts ih =>
      rw [List.forall_mem_cons] at hParts
      rw [List.flatMap_cons, List.count_append,
        List.count_append, ih hParts.2,
        List.count_eq_zero_of_not_mem hParts.1,
        List.count_singleton_self, List.length_cons]
      omega

end Text

------------------------------------------------------------
-- Control Characters
------------------------------------------------------------

namespace Json

open Printer

/- No character is a control character. -/
def NoControl
    (cs : List Char) : Prop :=
  ∀ c ∈ cs, 0x20 ≤ c.toNat

theorem noControl_append_iff
    (left right : List Char) :
    NoControl (left ++ right) ↔
      NoControl left ∧ NoControl right :=
  List.forall_mem_append

theorem noControl_cons_iff
    (c : Char)
    (cs : List Char) :
    NoControl (c :: cs) ↔ 0x20 ≤ c.toNat ∧ NoControl cs :=
  List.forall_mem_cons

theorem noControl_nil :
    NoControl [] := by
  intro c hc
  cases hc

theorem noControl_of_all
    {cs : List Char}
    (hAll : (cs.all fun c => decide (0x20 ≤ c.toNat)) = true) :
    NoControl cs := by
  intro c hc
  exact of_decide_eq_true (List.all_eq_true.mp hAll c hc)

theorem newline_not_mem_of_noControl
    {cs : List Char}
    (hControl : NoControl cs) :
    '\n' ∉ cs := by
  intro hMem
  exact absurd (hControl _ hMem) (by decide)

theorem noControl_hex
    (width n : Nat) :
    NoControl (Text.hex width n) := by
  induction width generalizing n with
  | zero => exact noControl_nil
  | succ width ih =>
      have hAll :
          ∀ n : Fin 16, 0x20 ≤ (Text.hexDigit n).toNat := by
        decide
      rw [Text.hex, noControl_append_iff, noControl_cons_iff]
      exact ⟨ih _, hAll ⟨n % 16, Nat.mod_lt n (by decide)⟩,
        noControl_nil⟩

theorem noControl_shortEscape
    {c : Char}
    {cs : List Char}
    (hShort : shortEscape? c = some cs) :
    NoControl cs := by
  rcases escape?_of_shortEscape? hShort with
    ⟨letter, rfl, -, hEscape⟩
  have hLetter : 0x20 ≤ letter.toNat := by
    unfold Reader.escape? at hEscape
    split at hEscape
    case h_9 => cases hEscape
    all_goals decide
  rw [noControl_cons_iff, noControl_cons_iff]
  exact ⟨by decide, hLetter, noControl_nil⟩

/- Whatever the character, none is written for it. -/
theorem noControl_plainChar
    (c : Char) :
    NoControl (plainChar c) := by
  unfold plainChar
  split
  · next cs hShort => exact noControl_shortEscape hShort
  · split
    · rw [unitEscape, noControl_cons_iff, noControl_cons_iff]
      exact ⟨by decide, by decide, noControl_hex 4 _⟩
    · next hPlain =>
        rw [noControl_cons_iff]
        exact ⟨Nat.le_of_not_lt hPlain, noControl_nil⟩

theorem noControl_quote
    (s : String) :
    NoControl (quote plainChar s) := by
  rw [quote, noControl_append_iff, noControl_cons_iff,
    noControl_cons_iff]
  refine ⟨⟨by decide, ?_⟩, by decide, noControl_nil⟩
  intro c hc
  rcases List.mem_flatMap.mp hc with ⟨d, -, hChar⟩
  exact noControl_plainChar d c hChar

theorem noControl_decimal
    (n : Int) :
    NoControl (decimal n) := by
  have hDigits :
      ∀ n : Nat, NoControl (Nat.toDigits 10 n) := by
    intro n c hc
    have hDigit :=
      Nat.isDigit_of_mem_toDigits (by decide) (by decide) hc
    rw [Char.isDigit_iff_toNat] at hDigit
    exact Nat.le_trans (by decide) hDigit.1
  cases n with
  | ofNat n => exact hDigits n
  | negSucc n =>
      rw [decimal, noControl_cons_iff]
      exact ⟨by decide, hDigits (n + 1)⟩

theorem noControl_separated
    {sep : List Char}
    (hSep : NoControl sep)
    {pieces : List (List Char)}
    (hPieces : ∀ piece ∈ pieces, NoControl piece) :
    NoControl (separated sep pieces) := by
  induction pieces with
  | nil => exact noControl_nil
  | cons piece pieces ih =>
      rw [List.forall_mem_cons] at hPieces
      cases pieces with
      | nil => exact hPieces.1
      | cons next more =>
          rw [separated_cons_cons, noControl_append_iff,
            noControl_append_iff]
          exact ⟨hPieces.1, hSep, ih hPieces.2⟩

/- The line of a value has no control character. -/
theorem noControl_line
    {v : Json}
    (hPlain : Plain v) :
    NoControl (line plainChar v) := by
  have hSep : NoControl [',', ' '] :=
    noControl_of_all rfl
  induction hPlain with
  | null => exact noControl_of_all rfl
  | bool b => cases b <;> exact noControl_of_all rfl
  | int n => exact noControl_decimal n
  | str s => exact noControl_quote s
  | @arr items hItems ih =>
      rw [line_arr, noControl_append_iff,
        noControl_cons_iff, noControl_cons_iff]
      refine ⟨⟨by decide, noControl_separated hSep ?_⟩,
        by decide, noControl_nil⟩
      rw [List.forall_mem_map]
      exact ih
  | @obj fields hNames hValues ih =>
      rw [line_obj, noControl_append_iff, noControl_cons_iff,
        noControl_cons_iff]
      refine ⟨⟨by decide, noControl_separated hSep ?_⟩,
        by decide, noControl_nil⟩
      simp only [List.forall_mem_map]
      intro kv hkv
      rw [fieldText, noControl_append_iff, noControl_cons_iff,
        noControl_cons_iff]
      exact ⟨noControl_quote kv.1, by decide, by decide,
        ih kv ((arrangement_byName fields).mem_iff.mp hkv)⟩

/- The lines of values, each ended by a new line. -/
theorem toLines_eq
    (vs : List Json) :
    toLines vs =
      String.ofList
        ((vs.map (line plainChar)).flatMap (· ++ ['\n'])) := by
  rw [toLines, List.flatMap_map]

theorem newline_not_mem_lines
    {vs : List Json}
    (hPlain : ∀ v ∈ vs, Plain v) :
    ∀ part ∈ vs.map (line plainChar), '\n' ∉ part := by
  rw [List.forall_mem_map]
  intro v hv
  exact newline_not_mem_of_noControl
    (noControl_line (hPlain v hv))

end Json

------------------------------------------------------------
-- Lines of Chains
------------------------------------------------------------

namespace Chain

theorem plain_toJson
    (c : Chain) :
    c.toJson.Plain := by
  have hEntry :
      ∀ e : Entry, Json.Plain (.obj [
        ("method", .str e.method.text),
        ("handled", .bool e.handled)]) := by
    intro e
    apply Json.Plain.obj
    · change ["method", "handled"].Nodup
      decide
    · simp [Json.Plain.str, Json.Plain.bool]
  apply Json.Plain.obj
  · change
      ["throw_from", "exception", "chain", "escapes"].Nodup
    decide
  · simp only [List.mem_cons, List.not_mem_nil, or_false,
      forall_eq_or_imp, forall_eq]
    exact ⟨.str _, Json.plain_ofOption _,
      Json.plain_map hEntry _, .bool _⟩

/-
  The lines of chains, whichever characters the names in them
  have. The text has one new line for each chain, and falls
  into one line for each of them, with nothing after the last.
  The line of a chain is read as the value of that chain.
-/
theorem lines_framed
    (chains : List Chain) :
    (Json.toLines (chains.map toJson)).toList.count '\n' =
      chains.length ∧
    ∃ lines : List String,
      Text.splitAll '\n' (Json.toLines (chains.map toJson)) =
        lines ++ [""] ∧
      lines.length = chains.length ∧
      ∀ (i : Nat) (c : Chain) (line : String),
        chains[i]? = some c → lines[i]? = some line →
          ∃ v, Json.parse line = some v ∧ v.Same c.toJson := by
  have hPlain : ∀ v ∈ chains.map toJson, v.Plain := by
    rw [List.forall_mem_map]
    intro c _
    exact c.plain_toJson
  have hParts := Json.newline_not_mem_lines hPlain
  rw [Json.toLines_eq]
  refine ⟨?_, _, Text.splitAll_ended hParts, by simp, ?_⟩
  · rw [String.toList_ofList, Text.count_ended hParts,
      List.length_map, List.length_map]
  · intro i c line hChain hLine
    rw [List.getElem?_map, List.getElem?_map,
      List.getElem?_map, hChain] at hLine
    cases hLine
    exact ⟨_, Json.parse_toLine c.plain_toJson,
      Json.arrangement_byName.same_arrange c.plain_toJson⟩

end Chain

end Uncaught
