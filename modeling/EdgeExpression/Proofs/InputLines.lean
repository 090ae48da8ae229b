import EdgeExpression.CommandLine.Input

/-!
# Lines of bytes

Standard input is read line by line, but whether it is UTF-8 is a matter of all its bytes: bytes
are UTF-8 exactly if each line of them is. In a character that takes several bytes, none of them is
a line feed, so cutting the bytes of a text into lines comes to the same as cutting the text. And
lines that are UTF-8 are so one behind the other.

Hence reading finds the expressions on the lines of the text that the bytes encode; and if they
encode no text, it finds nothing, whichever line is to blame.
-/
namespace EdgeExpression
namespace Lines

variable {α : Type}

/-! ## Lines with their ends -/

/-- A character in front of the first line is in front of all of them. -/
theorem flatten_prepend (c : α) (lines : List (List α)) :
    (prepend c lines).flatten = c :: lines.flatten := by
  cases lines with
  | nil => rfl
  | cons line rest => rfl

/-- The characters of a text are put in front of the first line, in their order. -/
theorem foldr_prepend_cons (line own : List α) (others : List (List α)) :
    line.foldr prepend (own :: others) = (line ++ own) :: others := by
  induction line with
  | nil => rfl
  | cons c line induction => rw [List.foldr_cons, induction]; rfl

/-- Where there is no line yet, text makes a new one. -/
theorem foldr_prepend_nil {line : List α} (present : line ≠ []) :
    line.foldr prepend [] = [line] := by
  obtain ⟨front, last, rfl⟩ := (List.eq_nil_or_concat line).resolve_left present
  rw [List.concat_eq_append, List.foldr_append]
  exact foldr_prepend_cons front [last] []

section WithEnds

variable [DecidableEq α] {feed : α}

/-- Cutting into lines loses nothing. -/
theorem flatten_withEnds (feed : α) (sequence : List α) :
    (withEnds feed sequence).flatten = sequence := by
  induction sequence with
  | nil => rfl
  | cons c rest induction =>
      rw [withEnds]
      by_cases ends : c = feed
      · rw [if_pos ends, List.flatten_cons, induction, ends]
        rfl
      · rw [if_neg ends, flatten_prepend, induction]

/-- What holds no feed belongs to the first line. -/
theorem withEnds_append {front : List α} (whole : feed ∉ front) (rest : List α) :
    withEnds feed (front ++ rest) = front.foldr prepend (withEnds feed rest) := by
  induction front with
  | nil => rfl
  | cons c front induction =>
      obtain ⟨other, whole⟩ := List.ne_and_not_mem_of_not_mem_cons whole
      rw [List.cons_append, withEnds, if_neg other.symm, induction whole]
      rfl

/-- Lines are never empty. -/
theorem ne_nil_of_mem_withEnds {sequence line : List α} (member : line ∈ withEnds feed sequence) :
    line ≠ [] := by
  induction sequence generalizing line with
  | nil => cases member
  | cons c rest induction =>
      rw [withEnds] at member
      split at member
      · rcases List.mem_cons.mp member with rfl | later
        · exact List.cons_ne_nil c []
        · exact induction later
      · cases behind : withEnds feed rest with
        | nil =>
            rw [behind] at member
            obtain rfl := List.mem_singleton.mp member
            exact List.cons_ne_nil c []
        | cons first others =>
            rw [behind] at induction member
            rcases List.mem_cons.mp member with rfl | later
            · exact List.cons_ne_nil c first
            · exact induction (List.mem_cons_of_mem _ later)

end WithEnds

/-! ## Lines without their ends -/

/-- A character in front of a line stays there, unless it is a carriage return in front of the
line feed. -/
theorem withoutEnd_cons {c : Char} {line : List Char} (present : line ≠ [])
    (apart : c = '\r' → line ≠ ['\n']) : withoutEnd (c :: line) = c :: withoutEnd line := by
  obtain ⟨front, last, rfl⟩ := (List.eq_nil_or_concat line).resolve_left present
  rw [List.concat_eq_append] at apart ⊢
  simp only [withoutEnd, ← List.cons_append, List.getLast?_concat, List.dropLast_concat]
  by_cases feed : last = '\n'
  · cases front with
    | nil =>
        have notReturn : c ≠ '\r' := fun same => apart same (by rw [feed]; rfl)
        simp [feed, notReturn]
    | cons d front =>
        simp only [feed, if_true, List.getLast?_cons_cons, List.dropLast_cons_cons]
        split <;> rfl
  · simp [feed]

/-- A character that does not belong to the end of a line stands in front of what follows. -/
theorem split_cons {c : Char} {rest : List Char}
    (notReturn : ∀ tail, c = '\r' → rest = '\n' :: tail → False) (notFeed : c ≠ '\n') :
    split (c :: rest) = prepend c (split rest) :=
  split.eq_4 c rest notReturn notFeed

/-- The lines of a text are what is left of its lines when their ends are taken off. Proof: by
induction as lines are cut; a carriage return is followed by the line feed exactly where both are
the end of a line. -/
theorem split_eq_map_withoutEnd (text : List Char) :
    split text = (withEnds '\n' text).map withoutEnd := by
  induction text using split.induct with
  | case1 => rfl
  | case2 rest induction =>
      have cut : withEnds '\n' ('\r' :: '\n' :: rest) = ['\r', '\n'] :: withEnds '\n' rest := rfl
      rw [cut, List.map_cons, ← induction]
      rfl
  | case3 rest induction =>
      have cut : withEnds '\n' ('\n' :: rest) = ['\n'] :: withEnds '\n' rest := rfl
      rw [cut, List.map_cons, ← induction]
      rfl
  | case4 c rest notReturn notFeed induction =>
      rw [split_cons notReturn notFeed, induction, withEnds, if_neg notFeed]
      cases behind : withEnds '\n' rest with
      | nil =>
          have alone : withoutEnd [c] = [c] := by
            rw [withoutEnd, if_neg (by simpa using notFeed)]
          exact congrArg (fun line => [line]) alone.symm
      | cons line others =>
          have present : line ≠ [] := ne_nil_of_mem_withEnds (behind ▸ List.mem_cons_self)
          have apart : c = '\r' → line ≠ ['\n'] := by
            rintro rfl rfl
            have text := flatten_withEnds '\n' rest
            rw [behind] at text
            exact notReturn others.flatten rfl text.symm
          exact congrArg (· :: others.map withoutEnd) (withoutEnd_cons present apart).symm

end Lines

namespace CommandLine

/-! ## Lines of encoded text -/

/-- The bytes of a text in UTF-8. -/
def encode (text : List Char) : List UInt8 := text.flatMap String.utf8EncodeChar

/-- The bytes of a text are those of its first character and those of the others. -/
theorem encode_cons (c : Char) (text : List Char) :
    encode (c :: text) = String.utf8EncodeChar c ++ encode text := rfl

/-- A character of ASCII is encoded as its code, and the bytes of any other are 128 or more. -/
theorem toNat_of_mem_utf8EncodeChar {c : Char} {byte : UInt8}
    (member : byte ∈ String.utf8EncodeChar c) : byte.toNat = c.toNat ∨ 128 ≤ byte.toNat := by
  have code : c.toNat = c.val.toNat := rfl
  simp only [String.utf8EncodeChar] at member
  split at member
  · obtain rfl := List.mem_singleton.mp member
    left
    rw [UInt8.toNat_ofNat']
    omega
  · right
    split at member
    · simp only [List.mem_cons, List.not_mem_nil, or_false] at member
      rcases member with rfl | rfl <;> rw [UInt8.toNat_ofNat'] <;> omega
    · split at member
      · simp only [List.mem_cons, List.not_mem_nil, or_false] at member
        rcases member with rfl | rfl | rfl <;> rw [UInt8.toNat_ofNat'] <;> omega
      · simp only [List.mem_cons, List.not_mem_nil, or_false] at member
        rcases member with rfl | rfl | rfl | rfl <;> rw [UInt8.toNat_ofNat'] <;> omega

/-- Of all characters only the line feed has a byte that is a line feed. -/
theorem feedByte_mem_utf8EncodeChar {c : Char} (feed : feedByte ∈ String.utf8EncodeChar c) :
    c = '\n' := by
  rcases toNat_of_mem_utf8EncodeChar feed with same | high
  · exact Char.toNat_inj.mp same.symm
  · exact absurd high (by decide)

/-- The bytes of a text are cut into lines as the text is. Proof: by induction on the text. The
line feed is one byte, and the bytes of any other character stay together, for none of them is a
line feed. -/
theorem withEnds_encode (text : List Char) :
    Lines.withEnds feedByte (encode text) = (Lines.withEnds '\n' text).map encode := by
  induction text with
  | nil => rfl
  | cons c rest induction =>
      by_cases feed : c = '\n'
      · have cut : Lines.withEnds '\n' (c :: rest) = [c] :: Lines.withEnds '\n' rest := by
          rw [Lines.withEnds, if_pos feed]
        rw [cut, List.map_cons, ← induction, feed]
        rfl
      · have whole : feedByte ∉ String.utf8EncodeChar c := mt feedByte_mem_utf8EncodeChar feed
        have cut :
            Lines.withEnds '\n' (c :: rest) = Lines.prepend c (Lines.withEnds '\n' rest) := by
          rw [Lines.withEnds, if_neg feed]
        rw [encode_cons, Lines.withEnds_append whole, induction, cut]
        cases Lines.withEnds '\n' rest with
        | nil =>
            rw [List.map_nil, Lines.foldr_prepend_nil String.utf8EncodeChar_ne_nil, Lines.prepend,
              List.map_singleton, encode_cons, encode, List.flatMap_nil, List.append_nil]
        | cons line others =>
            rw [List.map_cons, Lines.foldr_prepend_cons, ← encode_cons]
            rfl

/-! ## Reading -/

/-- The bytes of a text are read as the text. -/
theorem fromUTF8?_toUTF8 (text : String) : String.fromUTF8? text.toUTF8 = some text := by
  rw [String.fromUTF8?, String.toUTF8_eq_toByteArray, dif_pos text.isValidUTF8]
  rfl

/-- An encoded line is read without its end. -/
theorem lineText?_encode (line : List Char) :
    lineText? (encode line) = some (String.ofList (Lines.withoutEnd line)) := by
  have bytes : (encode line).toByteArray = (String.ofList line).toUTF8 := by
    rw [String.toUTF8_eq_toByteArray, String.toByteArray_ofList]
    rfl
  rw [lineText?, bytes, fromUTF8?_toUTF8, Option.map_some, String.toList_ofList]

/-- Encoded lines are all read. -/
theorem readLines?_encode (lines : List (List Char)) :
    readLines? (lines.map encode) =
      some ((lines.map fun line => String.ofList (Lines.withoutEnd line)).filter
        (!isEmptyLine ·)) := by
  induction lines with
  | nil => rfl
  | cons line rest induction =>
      rw [List.map_cons, readLines?, lineText?_encode, induction, List.map_cons, List.filter_cons]
      by_cases empty : isEmptyLine (String.ofList (Lines.withoutEnd line)) <;> simp [empty]

/-- A line that is read is UTF-8. -/
theorem isValidUTF8_of_lineText? {line : List UInt8} {text : String}
    (read : lineText? line = some text) : line.toByteArray.IsValidUTF8 := by
  apply Decidable.byContradiction
  intro invalid
  rw [lineText?, String.fromUTF8?, dif_neg invalid] at read
  cases read

/-- If all lines are read, each of them is UTF-8. -/
theorem isValidUTF8_of_readLines? {lines : List (List UInt8)} {texts : List String}
    (read : readLines? lines = some texts) : ∀ line ∈ lines, line.toByteArray.IsValidUTF8 := by
  induction lines generalizing texts with
  | nil => exact List.forall_mem_nil _
  | cons line rest induction =>
      obtain ⟨text, first, behind⟩ := Option.bind_eq_some_iff.mp read
      obtain ⟨others, later, _⟩ := Option.bind_eq_some_iff.mp behind
      exact List.forall_mem_cons.mpr ⟨isValidUTF8_of_lineText? first, induction later⟩

/-- Bytes that are UTF-8 are so one behind the other. -/
theorem isValidUTF8_flatten {lines : List (List UInt8)}
    (valid : ∀ line ∈ lines, line.toByteArray.IsValidUTF8) :
    lines.flatten.toByteArray.IsValidUTF8 := by
  induction lines with
  | nil => exact ByteArray.isValidUTF8_empty
  | cons line rest induction =>
      obtain ⟨first, others⟩ := List.forall_mem_cons.mp valid
      rw [List.flatten_cons, List.toByteArray_append]
      exact first.append (induction others)

/-- Bytes that are UTF-8 encode a text. -/
theorem exists_encode {bytes : ByteArray} (valid : bytes.IsValidUTF8) :
    ∃ text : List Char, bytes = (String.ofList text).toUTF8 ∧ bytes.data.toList = encode text := by
  obtain ⟨text, rfl⟩ := valid
  refine ⟨text, ?_, List.toList_data_toByteArray⟩
  rw [String.toUTF8_eq_toByteArray, String.toByteArray_ofList]

/-- Bytes are UTF-8 exactly if each of their lines is. -/
theorem isValidUTF8_iff_forall_line (bytes : ByteArray) :
    bytes.IsValidUTF8 ↔
      ∀ line ∈ Lines.withEnds feedByte bytes.data.toList, line.toByteArray.IsValidUTF8 := by
  constructor
  · intro valid line member
    obtain ⟨text, _, encoded⟩ := exists_encode valid
    rw [encoded, withEnds_encode] at member
    obtain ⟨own, _, rfl⟩ := List.mem_map.mp member
    exact ⟨own, rfl⟩
  · intro valid
    have whole := isValidUTF8_flatten valid
    have same : bytes.data.toList.toByteArray = bytes := ByteArray.ext List.data_toByteArray
    rwa [Lines.flatten_withEnds, same] at whole

/-- What is read from standard input are the expressions on the lines of the text that its bytes
encode, and nothing is read if its bytes encode no text. -/
theorem readInput?_eq (stdin : ByteArray) :
    readInput? stdin = (String.fromUTF8? stdin).map inputExpressions := by
  by_cases valid : stdin.IsValidUTF8
  · obtain ⟨text, rfl, encoded⟩ := exists_encode valid
    rw [readInput?, encoded, withEnds_encode, readLines?_encode, fromUTF8?_toUTF8,
      Option.map_some, inputExpressions, Lines.ofText, String.toList_ofList,
      Lines.split_eq_map_withoutEnd, List.map_map]
    rfl
  · rw [String.fromUTF8?, dif_neg valid, Option.map_none]
    cases read : readInput? stdin with
    | none => rfl
    | some texts =>
        have lines := isValidUTF8_of_readLines? read
        exact absurd ((isValidUTF8_iff_forall_line stdin).mpr lines) valid

/-- Without an expression among the arguments, standard input is handled. -/
theorem handled?_nil (stdin : ByteArray) :
    handled? [] stdin = (String.fromUTF8? stdin).map inputExpressions := readInput?_eq stdin

/-- Standard input is not read if an expression is given. -/
theorem handled?_of_ne_nil {expressions : List String} (given : expressions ≠ [])
    (stdin : ByteArray) : handled? expressions stdin = some expressions := by
  rw [handled?, if_neg (by simpa using given)]

end CommandLine
end EdgeExpression
