import CoreBench.Image
import CoreBench.Proofs.Cutting
import CoreBench.Proofs.Numerals
import Mathlib.Algebra.Ring.Nat

/-!
Images read back. An image is one entry on each line, and an entry can be read: the address in
eight hexadecimal digits, the bytes in two digits each, and the comma behind all entries but the
last. The bytes of the entries are those of the program, as far as they fill blocks.
-/

namespace CoreBench

namespace Text

theorem hex_upper_chars (width n : Nat) : (hexUpper width n).toList =
    List.replicate (width - (Nat.toDigits 16 n).length) '0' ++
      (Nat.toDigits 16 n).map Char.toUpper := by
  simp [hexUpper, List.leftpad]

theorem upper_digit : ∀ digit < 16, digit.digitChar.toUpper.isAlphanum = true ∧
    digit.digitChar.toUpper.toLower = digit.digitChar ∧
    hexDigit? digit.digitChar.toUpper = some digit := by
  decide

theorem hex_upper_alphanum (width n : Nat) :
    ∀ c ∈ (hexUpper width n).toList, c.isAlphanum = true := by
  intro c member
  rw [hex_upper_chars, List.mem_append] at member
  rcases member with zero | digit
  · rw [List.eq_of_mem_replicate zero]
    rfl
  · obtain ⟨small, inside, rfl⟩ := List.mem_map.mp digit
    obtain ⟨value, bound, rfl⟩ := mem_to_digits 16 n small (by decide) inside
    exact (upper_digit value bound).1

theorem hex_upper_length (width n : Nat) (fits : n < 16 ^ width) (some : 0 < width) :
    (hexUpper width n).toList.length = width := by
  have digits := (Nat.length_toDigits_le_iff (by decide) some).mpr fits
  rw [hex_upper_chars, List.length_append, List.length_replicate, List.length_map]
  omega

/-- A number is read back from its digits. -/
theorem hexadecimal_upper (width n : Nat) : hexadecimal? (hexUpper width n).toList = some n := by
  have small : ∀ c ∈ Nat.toDigits 16 n, (Char.toLower ∘ Char.toUpper) c = id c := by
    intro c member
    obtain ⟨digit, bound, rfl⟩ := mem_to_digits 16 n c (by decide) member
    exact (upper_digit digit bound).2.1
  apply hexadecimal_spelled _ (width - (Nat.toDigits 16 n).length)
  rw [hex_upper_chars, lower, List.map_append, List.map_replicate, List.map_map,
    List.map_congr_left small, List.map_id]
  rfl

theorem hex_upper_byte (n : Nat) (byte : n < 256) : (hexUpper 2 n).toList =
    [(n / 16).digitChar.toUpper, (n % 16).digitChar.toUpper] := by
  rw [hex_upper_chars]
  by_cases single : n < 16
  · rw [Nat.toDigits_of_lt_base single, Nat.div_eq_of_lt single, Nat.mod_eq_of_lt single]
    rfl
  · rw [Nat.toDigits_of_base_le (by decide) (by omega),
      Nat.toDigits_of_lt_base (show n / 16 < 16 by omega)]
    rfl

end Text

namespace Image

/-- The bytes that pairs of hexadecimal digits stand for. -/
def bytes? : List Char → Option (List UInt8)
  | [] => some []
  | [_] => none
  | high :: low :: rest =>
      match Text.hexDigit? high, Text.hexDigit? low, bytes? rest with
      | some high, some low, some bytes => some (UInt8.ofNat (16 * high + low) :: bytes)
      | _, _, _ => none

theorem hex_bytes_cons (byte : UInt8) (bytes : List UInt8) :
    (hexBytes (byte :: bytes)).toList =
      (Text.hexUpper 2 byte.toNat).toList ++ (hexBytes bytes).toList := by
  rw [hexBytes, List.map_cons, String.join_cons, String.toList_append, hexBytes]

theorem hex_bytes_alphanum (bytes : List UInt8) :
    ∀ c ∈ (hexBytes bytes).toList, c.isAlphanum = true := by
  induction bytes with
  | nil => simp [hexBytes]
  | cons byte bytes ih =>
      rw [hex_bytes_cons, List.forall_mem_append]
      exact ⟨Text.hex_upper_alphanum 2 byte.toNat, ih⟩

/-- Bytes are read back from their digits. -/
theorem bytes_hex (bytes : List UInt8) : bytes? (hexBytes bytes).toList = some bytes := by
  induction bytes with
  | nil => rfl
  | cons byte bytes ih =>
      have bound := byte.toNat_lt
      rw [hex_bytes_cons, Text.hex_upper_byte _ bound, List.cons_append, List.singleton_append,
        bytes?, (Text.upper_digit _ (show byte.toNat / 16 < 16 by omega)).2.2,
        (Text.upper_digit _ (show byte.toNat % 16 < 16 by omega)).2.2, ih]
      simp [Nat.div_add_mod]

/-- The entry of a word at an address, as it stands on a line. -/
structure Entry where
  address : Nat
  word : List UInt8
  followed : Bool
  deriving DecidableEq, Repr

namespace Entry

def opening : List Char := "\t\t\tipif_addr_data_pair_format(x".toList

def middle : List Char := ", x".toList

/-- What stands behind the last quotation mark. -/
def closing (followed : Bool) : List Char :=
  if followed then [')', ','] else [')']

/-- Reads a line. The address has eight digits. -/
def ofLine? (line : List Char) : Option Entry :=
  match line.splitOn '"' with
  | [front, address, between, word, back] =>
      if front = opening ∧ between = middle ∧ address.length = 8 ∧
          (back = closing true ∨ back = closing false) then
        match Text.hexadecimal? address, bytes? word with
        | some address, some word => some ⟨address, word, back = closing true⟩
        | _, _ => none
      else none
  | _ => none

def line (address word : List Char) (followed : Bool) : List Char :=
  opening ++ '"' :: (address ++ '"' :: (middle ++ '"' :: (word ++ '"' :: closing followed)))

/-- Around letters and digits, a line has nothing but its fixed characters. -/
theorem line_absent {address word : List Char} (first : ∀ c ∈ address, c.isAlphanum = true)
    (second : ∀ c ∈ word, c.isAlphanum = true) (followed : Bool) (c : Char)
    (outside : c ∉ line [] [] true) (other : c.isAlphanum = false) :
    c ∉ line address word followed := by
  have apart (cs : List Char) (letters : ∀ c ∈ cs, c.isAlphanum = true) : c ∉ cs := by
    intro member
    rw [letters c member] at other
    cases other
  have ends : closing followed ⊆ closing true := by
    cases followed <;> decide
  intro member
  apply outside
  simp only [line, List.mem_append, List.mem_cons, List.not_mem_nil, false_or] at member ⊢
  rcases member with front | rfl | inside | rfl | between | rfl | inside | rfl | back
  · exact .inl front
  · exact .inr (.inl rfl)
  · exact absurd inside (apart address first)
  · exact .inr (.inl rfl)
  · exact .inr (.inr (.inr (.inl between)))
  · exact .inr (.inl rfl)
  · exact absurd inside (apart word second)
  · exact .inr (.inl rfl)
  · exact .inr (.inr (.inr (.inr (.inr (.inr (ends back))))))

theorem of_line_line (address : Nat) (word : List UInt8) (followed : Bool)
    (fits : address < 16 ^ 8) :
    ofLine? (line (Text.hexUpper 8 address).toList (hexBytes word).toList followed) =
      some ⟨address, word, followed⟩ := by
  have unquoted (cs : List Char) (letters : ∀ c ∈ cs, c.isAlphanum = true) : '"' ∉ cs := by
    intro member
    exact absurd (letters _ member) (by decide)
  have quoted : (line (Text.hexUpper 8 address).toList (hexBytes word).toList followed).splitOn '"' =
      [opening, (Text.hexUpper 8 address).toList, middle, (hexBytes word).toList,
        closing followed] := by
    rw [line, List.splitOn_append_cons_self_of_not_mem (by decide),
      List.splitOn_append_cons_self_of_not_mem (unquoted _ (Text.hex_upper_alphanum 8 address)),
      List.splitOn_append_cons_self_of_not_mem (by decide),
      List.splitOn_append_cons_self_of_not_mem (unquoted _ (hex_bytes_alphanum word)),
      List.splitOn_eq_singleton (by cases followed <;> decide)]
  have length := Text.hex_upper_length 8 address fits (by decide)
  rw [ofLine?, quoted]
  simp only [length, Text.hexadecimal_upper, bytes_hex]
  cases followed <;> simp [closing]

end Entry

/-- The lines of an image: an entry for each word, and one at the highest address. -/
def layout (size : Nat) (words : List (List UInt8)) : List (List Char) :=
  (words.mapIdx fun n word =>
    Entry.line (Text.hexUpper 8 (n * size)).toList (hexBytes word).toList true) ++
    [Entry.line (Text.hexUpper 8 0xFFFFFFFF).toList (hexBytes (List.replicate size 0)).toList false]

def words (order : ByteOrder) (size : Nat) (code : List UInt8) : List (List UInt8) :=
  (blocks size (code.length / size) code).map (ordered order)

theorem entry_line (address word : String) :
    (entry address word).toList = Entry.line address.toList word.toList false := by
  have start : "\t\t\tipif_addr_data_pair_format(x\"".toList = Entry.opening ++ ['"'] := by decide
  have between : "\", x\"".toList = '"' :: (Entry.middle ++ ['"']) := by decide
  have ends : "\")".toList = '"' :: Entry.closing false := by decide
  change ("\t\t\tipif_addr_data_pair_format(x\"" ++ address ++ "\", x\"" ++ word ++ "\")").toList = _
  rw [String.toList_append, String.toList_append, String.toList_append, String.toList_append,
    start, between, ends, Entry.line]
  simp only [List.append_assoc, List.cons_append, List.nil_append]

theorem render_ended (arch : Arch) (code : List UInt8) :
    (render arch code).toList = Text.ended (layout (max arch.instrBytes 1)
      (words arch.byteOrder (max arch.instrBytes 1) code)) := by
  have last : "FFFFFFFF" = Text.hexUpper 8 0xFFFFFFFF := by decide
  have comma (address word : String) : (entry address word ++ ",\n").toList =
      Entry.line address.toList word.toList true ++ ['\n'] := by
    rw [String.toList_append, entry_line]
    simp [Entry.line, Entry.closing]
  have feed : "\n".toList = ['\n'] := by decide
  unfold render
  dsimp only
  rw [String.toList_append, String.toList_append, String.toList_join, entry_line, last, feed]
  simp only [layout, words, Text.ended, List.flatMap_append, List.flatMap_singleton,
    List.mapIdx_eq_zipIdx_map, List.flatMap_map, List.zipIdx_map, comma, List.append_assoc]
  rfl

theorem layout_absent (size : Nat) (words : List (List UInt8)) (c : Char)
    (outside : c ∉ Entry.line [] [] true) (other : c.isAlphanum = false) :
    ∀ line ∈ layout size words, c ∉ line := by
  intro line member
  rcases List.mem_append.mp member with body | last
  · obtain ⟨n, _, rfl⟩ := List.mem_mapIdx.mp body
    exact Entry.line_absent (Text.hex_upper_alphanum 8 _) (hex_bytes_alphanum _) true c outside other
  · rw [List.mem_singleton.mp last]
    exact Entry.line_absent (Text.hex_upper_alphanum 8 _) (hex_bytes_alphanum _) false c outside
      other

theorem lines_render (arch : Arch) (code : List UInt8) :
    Text.lines (render arch code).toList = layout (max arch.instrBytes 1)
      (words arch.byteOrder (max arch.instrBytes 1) code) := by
  rw [render_ended]
  apply Text.lines_ended
  · exact layout_absent _ _ '\n' (by decide) (by decide)
  · intro line member returned
    exact layout_absent _ _ '\r' (by decide) (by decide) line member
      (List.mem_of_getLast? returned)

theorem blocks_length (size count : Nat) (code : List UInt8) :
    (blocks size count code).length = count := by
  induction count generalizing code with
  | zero => rfl
  | succ count ih => rw [blocks, List.length_cons, ih]

theorem blocks_flatten (size count : Nat) (code : List UInt8) :
    (blocks size count code).flatten = code.take (size * count) := by
  induction count generalizing code with
  | zero => simp [blocks]
  | succ count ih => rw [blocks, List.flatten_cons, ih, Nat.mul_succ, Nat.add_comm, List.take_add]

theorem blocks_size (size count : Nat) (code : List UInt8) (enough : size * count ≤ code.length) :
    ∀ block ∈ blocks size count code, block.length = size := by
  induction count generalizing code with
  | zero => simp [blocks]
  | succ count ih =>
      rw [Nat.mul_succ] at enough
      rw [blocks, List.forall_mem_cons]
      exact ⟨by rw [List.length_take]; omega, ih _ (by rw [List.length_drop]; omega)⟩

/-- Blocks that are put together are taken apart again. -/
theorem blocks_of_flatten (size : Nat) (parts : List (List UInt8)) (rest : List UInt8)
    (sized : ∀ part ∈ parts, part.length = size) :
    blocks size parts.length (parts.flatten ++ rest) = parts := by
  induction parts with
  | nil => rfl
  | cons part parts ih =>
      obtain ⟨first, later⟩ := List.forall_mem_cons.mp sized
      rw [List.length_cons, blocks, List.flatten_cons, List.append_assoc, ← first,
        List.take_left, List.drop_left, first, ih later]

theorem ordered_ordered (order : ByteOrder) (block : List UInt8) :
    ordered order (ordered order block) = block := by
  cases order with
  | big => rfl
  | little => exact List.reverse_reverse block

theorem words_length (order : ByteOrder) (size : Nat) (code : List UInt8) :
    (words order size code).length = code.length / size := by
  rw [words, List.length_map, blocks_length]

theorem words_ordered (order : ByteOrder) (size : Nat) (code : List UInt8) :
    (words order size code).map (ordered order) = blocks size (code.length / size) code := by
  rw [words, List.map_map]
  exact (List.map_congr_left fun block _ => ordered_ordered order block).trans (List.map_id _)

theorem words_size (order : ByteOrder) (size : Nat) (code : List UInt8) :
    ∀ word ∈ words order size code, word.length = size := by
  intro word member
  obtain ⟨block, inside, rfl⟩ := List.mem_map.mp member
  have sized := blocks_size size _ code (Nat.mul_div_le code.length size) block inside
  cases order with
  | big => exact sized
  | little => rwa [ordered, List.length_reverse]

theorem hex_bytes_injective {word other : List UInt8}
    (same : (hexBytes word).toList = (hexBytes other).toList) : word = other := by
  have read := bytes_hex word
  rw [same, bytes_hex] at read
  exact (Option.some.inj read).symm

theorem layout_injective {size : Nat} {words others : List (List UInt8)}
    (same : layout size words = layout size others) : words = others := by
  have bodies := List.append_cancel_right same
  -- Lines at the same place have the same address, so they can differ in the word only.
  apply List.ext_getElem?
  intro n
  have lines := congrArg (·[n]?) bodies
  simp only [List.getElem?_mapIdx] at lines
  apply Option.map_injective _ lines
  intro word other line
  simp only [Entry.line, List.append_cancel_left_eq, List.cons.injEq, List.append_cancel_right_eq,
    true_and] at line
  exact hex_bytes_injective line

/-- Programs of whole blocks have different images. -/
theorem render_injective (arch : Arch) (code other : List UInt8) (positive : 1 ≤ arch.instrBytes)
    (whole : arch.instrBytes ∣ code.length) (others : arch.instrBytes ∣ other.length)
    (same : render arch code = render arch other) : code = other := by
  have lines := lines_render arch code
  rw [same, lines_render arch other, Nat.max_eq_left positive] at lines
  have words := congrArg (List.map (ordered arch.byteOrder)) (layout_injective lines)
  -- Turned back, the words are the blocks of the programs.
  rw [words_ordered, words_ordered] at words
  have bytes := congrArg List.flatten words
  rw [blocks_flatten, blocks_flatten, Nat.mul_div_cancel' whole, Nat.mul_div_cancel' others,
    List.take_length, List.take_length] at bytes
  exact bytes.symm

/-- The program with each full block turned round. -/
def reverseBlocks (size : Nat) (code : List UInt8) : List UInt8 :=
  ((blocks size (code.length / size) code).map List.reverse).flatten ++
    code.drop (size * (code.length / size))

theorem flatten_length (size : Nat) (parts : List (List UInt8))
    (sized : ∀ part ∈ parts, part.length = size) : parts.flatten.length = size * parts.length := by
  induction parts with
  | nil => rfl
  | cons part parts ih =>
      obtain ⟨first, later⟩ := List.forall_mem_cons.mp sized
      rw [List.flatten_cons, List.length_append, first, ih later, List.length_cons, Nat.mul_succ,
        Nat.add_comm]

theorem words_reverse_blocks (size : Nat) (code : List UInt8) :
    words .big size (reverseBlocks size code) = words .little size code := by
  have parts : words .little size code =
      (blocks size (code.length / size) code).map List.reverse := rfl
  have sized := words_size .little size code
  have count := words_length .little size code
  have length : (reverseBlocks size code).length = code.length := by
    have whole := Nat.mul_div_le code.length size
    rw [reverseBlocks, ← parts, List.length_append, flatten_length size _ sized, count,
      List.length_drop]
    omega
  -- The blocks that were turned round are of the same size, so they are the blocks again.
  have same := blocks_of_flatten size _ (code.drop (size * (code.length / size))) sized
  rw [count] at same
  calc words .big size (reverseBlocks size code)
      = blocks size ((reverseBlocks size code).length / size) (reverseBlocks size code) :=
        List.map_id _
    _ = words .little size code := by rw [length, reverseBlocks, ← parts, same]

theorem mapM_numbered {α β γ : Type} {read : β → Option γ} (items : List α) (write : Nat → α → β)
    (result : Nat → α → γ)
    (reads : ∀ n item, items[n]? = some item → read (write n item) = some (result n item)) :
    (items.mapIdx write).mapM read = some (items.mapIdx result) := by
  induction items generalizing write result with
  | nil => rfl
  | cons item items ih =>
      rw [List.mapIdx_cons, List.mapM_cons, reads 0 item rfl,
        ih _ (fun n => result (n + 1)) fun n other found => reads (n + 1) other found,
        List.mapIdx_cons]
      rfl

theorem layout_reads (size : Nat) (words : List (List UInt8))
    (short : size * words.length < 2 ^ 32) :
    (layout size words).mapM Entry.ofLine? =
      some ((words.mapIdx fun n word => ⟨n * size, word, true⟩) ++
        [⟨0xFFFFFFFF, List.replicate size 0, false⟩]) := by
  have body : (words.mapIdx fun n word => Entry.line (Text.hexUpper 8 (n * size)).toList
      (hexBytes word).toList true).mapM Entry.ofLine? =
        some (words.mapIdx fun n word => ⟨n * size, word, true⟩) := by
    apply mapM_numbered
    intro n word found
    obtain ⟨inside, _⟩ := List.getElem?_eq_some_iff.mp found
    apply Entry.of_line_line
    calc n * size ≤ words.length * size := Nat.mul_le_mul_right size (Nat.le_of_lt inside)
      _ < 16 ^ 8 := by rw [Nat.mul_comm]; exact short
  have last := Entry.of_line_line 0xFFFFFFFF (List.replicate size 0) false (by decide)
  rw [layout, List.mapM_append, body, List.mapM_cons, last]
  rfl

/-- The entries of an image hold the program block by block, and the one behind them ends it. The
image of a program of whole blocks determines it. -/
theorem render_read_back (arch : Arch) (code : List UInt8) (positive : 1 ≤ arch.instrBytes) :
    let size := arch.instrBytes
    let lines := Text.lines (render arch code).toList
    lines.length = code.length / size + 1 ∧
    (code.length < 2 ^ 32 → ∃ words : List (List UInt8),
      words.length = code.length / size ∧ (∀ word ∈ words, word.length = size) ∧
      (words.map (ordered arch.byteOrder)).flatten = code.take (size * (code.length / size)) ∧
      lines.mapM Entry.ofLine? =
        some ((words.mapIdx fun n word => ⟨n * size, word, true⟩) ++
          [⟨0xFFFFFFFF, List.replicate size 0, false⟩])) ∧
    (∀ other, size ∣ code.length → size ∣ other.length →
      render arch code = render arch other → code = other) ∧
    render { arch with byteOrder := .little } code =
      render { arch with byteOrder := .big } (reverseBlocks size code) := by
  intro size lines
  have same : max arch.instrBytes 1 = size := Nat.max_eq_left positive
  have laid : lines = layout size (words arch.byteOrder size code) := by
    rw [← same]
    exact lines_render arch code
  refine ⟨?_, ?_, ?_, ?_⟩
  · rw [laid, layout, List.length_append, List.length_mapIdx, words_length, List.length_singleton]
  · intro short
    refine ⟨words arch.byteOrder size code, words_length _ _ _, words_size _ _ _, ?_, ?_⟩
    · rw [words_ordered, blocks_flatten]
    · rw [laid]
      apply layout_reads
      rw [words_length]
      exact Nat.lt_of_le_of_lt (Nat.mul_div_le code.length size) short
  · exact fun other whole others equal =>
      render_injective arch code other positive whole others equal
  · have small := render_ended { arch with byteOrder := .little } code
    have large := render_ended { arch with byteOrder := .big } (reverseBlocks size code)
    rw [same] at small large
    rw [← String.toList_inj, small, large, words_reverse_blocks]

/-- A core with words of two bytes, the low one first. -/
def narrow : Arch := { byteOrder := .little, instrBytes := 2 }

theorem narrow_read_back :
    1 ≤ narrow.instrBytes ∧
      (Text.lines (render narrow [0x34, 0x12, 0xCD, 0xAB, 0x77]).toList).length = 3 ∧
      (Text.lines (render narrow [0x34, 0x12, 0xCD, 0xAB, 0x77]).toList).mapM Entry.ofLine? =
        some [⟨0, [0x12, 0x34], true⟩, ⟨2, [0xAB, 0xCD], true⟩, ⟨0xFFFFFFFF, [0, 0], false⟩] ∧
      render narrow [0x34, 0x12, 0xCD, 0xAB, 0x77] =
        render { narrow with byteOrder := .big } [0x12, 0x34, 0xAB, 0xCD, 0x77] := by
  have positive : 1 ≤ narrow.instrBytes := by decide
  obtain ⟨count, _, _, turned⟩ := render_read_back narrow [0x34, 0x12, 0xCD, 0xAB, 0x77] positive
  have reads : (Text.lines (render narrow [0x34, 0x12, 0xCD, 0xAB, 0x77]).toList).mapM
      Entry.ofLine? =
        some [⟨0, [0x12, 0x34], true⟩, ⟨2, [0xAB, 0xCD], true⟩, ⟨0xFFFFFFFF, [0, 0], false⟩] := by
    decide +kernel
  exact ⟨positive, count, reads, turned⟩

end Image

end CoreBench
