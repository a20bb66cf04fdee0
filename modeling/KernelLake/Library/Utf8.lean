import Mathlib.Data.List.Flatten

/-!
Texts as UTF-8 bytes.

An ASCII character is a single byte, and all bytes of another character are above the ASCII range. So what is
done to the ASCII bytes of a text is done to its ASCII characters.
-/

namespace KernelLake.Library.Utf8

def utf8 (text : List Char) : List UInt8 :=
  text.flatMap String.utf8EncodeChar

@[simp] theorem utf8_nil : utf8 [] = [] := rfl

@[simp] theorem utf8_cons (character : Char) (text : List Char) :
    utf8 (character :: text) = String.utf8EncodeChar character ++ utf8 text :=
  List.flatMap_cons

@[simp] theorem utf8_append (first second : List Char) : utf8 (first ++ second) = utf8 first ++ utf8 second :=
  List.flatMap_append

theorem utf8_injective {first second : List Char} (same : utf8 first = utf8 second) : first = second := by
  have encoded : first.utf8Encode = second.utf8Encode := by
    unfold List.utf8Encode
    exact congrArg List.toByteArray same
  have texts : String.ofList first = String.ofList second := String.toByteArray_inj.mp (by simpa using encoded)
  simpa using congrArg String.toList texts

/-! ## ASCII -/

theorem utf8EncodeChar_ascii {character : Char} (ascii : character.toNat < 0x80) :
    String.utf8EncodeChar character = [UInt8.ofNat character.toNat] :=
  if_pos (Nat.le_of_lt_succ ascii)

theorem wide_of_mem_utf8EncodeChar {character : Char} {byte : UInt8} (wide : 0x80 ≤ character.toNat)
    (member : byte ∈ String.utf8EncodeChar character) : 0x80 ≤ byte.toNat := by
  have above : ¬ character.val.toNat ≤ 0x7f := Nat.not_le_of_lt wide
  unfold String.utf8EncodeChar at member
  simp only [if_neg above] at member
  split at member
  · simp only [List.mem_cons, List.not_mem_nil, or_false] at member
    rcases member with rfl | rfl <;> simp only [UInt8.toNat_ofNat'] <;> omega
  · split at member
    · simp only [List.mem_cons, List.not_mem_nil, or_false] at member
      rcases member with rfl | rfl | rfl <;> simp only [UInt8.toNat_ofNat'] <;> omega
    · simp only [List.mem_cons, List.not_mem_nil, or_false] at member
      rcases member with rfl | rfl | rfl | rfl <;> simp only [UInt8.toNat_ofNat'] <;> omega

/-- An ASCII byte of a text is one of its characters. -/
theorem exists_of_mem_utf8 {text : List Char} {byte : UInt8} (ascii : byte.toNat < 0x80) (member : byte ∈ utf8 text) :
    ∃ character ∈ text, character.toNat = byte.toNat := by
  obtain ⟨character, inText, inBytes⟩ := List.mem_flatMap.mp member
  refine ⟨character, inText, ?_⟩
  by_cases wide : 0x80 ≤ character.toNat
  · have above := wide_of_mem_utf8EncodeChar wide inBytes
    omega
  · rw [utf8EncodeChar_ascii (Nat.lt_of_not_le wide), List.mem_singleton] at inBytes
    rw [inBytes, UInt8.toNat_ofNat']
    omega

/-- What is done to each byte of a text, where only ASCII bytes are changed. -/
theorem utf8_flatMap {ofByte : UInt8 → List UInt8} {ofCharacter : Char → List Char}
    (ascii : ∀ character : Char, character.toNat < 0x80 →
      ofByte (UInt8.ofNat character.toNat) = utf8 (ofCharacter character))
    (wideByte : ∀ byte : UInt8, 0x80 ≤ byte.toNat → ofByte byte = [byte])
    (wideCharacter : ∀ character : Char, 0x80 ≤ character.toNat → ofCharacter character = [character])
    (text : List Char) : (utf8 text).flatMap ofByte = utf8 (text.flatMap ofCharacter) := by
  induction text with
  | nil => rfl
  | cons character text hypothesis =>
    rw [utf8_cons, List.flatMap_append, hypothesis, List.flatMap_cons, utf8_append]
    congr 1
    by_cases wide : 0x80 ≤ character.toNat
    · rw [wideCharacter character wide, utf8_cons, utf8_nil, List.append_nil]
      have fixed : ∀ byte ∈ String.utf8EncodeChar character, ofByte byte = [byte] :=
        fun byte member => wideByte byte (wide_of_mem_utf8EncodeChar wide member)
      rw [List.flatMap_def, List.map_congr_left fixed, ← List.flatMap_def, List.flatMap_singleton']
    · rw [utf8EncodeChar_ascii (Nat.lt_of_not_le wide), List.flatMap_singleton,
        ascii character (Nat.lt_of_not_le wide)]

end KernelLake.Library.Utf8
