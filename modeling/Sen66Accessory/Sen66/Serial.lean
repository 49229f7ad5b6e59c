import Sen66Accessory.Sen66.Driver
import Sen66Accessory.Sen66.Encoding
import Mathlib.Data.List.FinRange

namespace Sen66

/-- The C string read from a buffer: its characters up to the first NUL. -/
def CharBuffer.cString (out : CharBuffer) : List UInt8 := out.chars.toList.takeWhile (· != 0)

/-- Store the characters of a text one after another, starting at an index. -/
def CharBuffer.storeFrom (out : CharBuffer) : Nat → List UInt8 → CharBuffer
  | _, [] => out
  | n, c :: text => (out.store n c).storeFrom (n + 1) text

theorem CharBuffer.storeFrom_append (out : CharBuffer) (n : Nat) (head tail : List UInt8) :
    out.storeFrom n (head ++ tail) = (out.storeFrom n head).storeFrom (n + head.length) tail := by
  induction head generalizing out n with
  | nil => rfl
  | cons c head ih =>
    rw [List.cons_append, storeFrom, ih, storeFrom, List.length_cons,
      show n + 1 + head.length = n + (head.length + 1) by omega]

/-- The indices stored to are the ones the text covers, each once. -/
theorem CharBuffer.stored_storeFrom (out : CharBuffer) (n : Nat) (text : List UInt8) :
    (out.storeFrom n text).stored = (List.range' n text.length).reverse ++ out.stored := by
  induction text generalizing out n with
  | nil => simp [storeFrom]
  | cons c text ih => simp [storeFrom, ih, store, List.range'_succ]

/-- A text that fits replaces the characters it covers and no others. -/
theorem CharBuffer.chars_storeFrom (out : CharBuffer) (n : Nat) (text : List UInt8)
    (hroom : n + text.length ≤ kSerialChars) :
    (out.storeFrom n text).chars.toList =
      out.chars.toList.take n ++ text ++ out.chars.toList.drop (n + text.length) := by
  induction text generalizing out n with
  | nil => simp [storeFrom]
  | cons c text ih =>
    rw [List.length_cons] at hroom
    have hn : n < out.chars.toList.length := by
      rw [Vector.length_toList]
      omega
    have hstore : (out.store n c).chars.toList = out.chars.toList.set n c := by
      simp [store, Vector.setIfInBounds, Vector.toList]
    have htake : (out.chars.toList.set n c).take (n + 1) = out.chars.toList.take n ++ [c] := by
      rw [List.take_succ_eq_append_getElem (by simpa using hn), List.take_set_of_le (Nat.le_refl n),
        List.getElem_set_self]
    have hdrop : (out.chars.toList.set n c).drop (n + 1 + text.length) =
        out.chars.toList.drop (n + (text.length + 1)) := by
      rw [List.drop_set_of_lt (by omega), show n + 1 + text.length = n + (text.length + 1) by omega]
    rw [storeFrom, ih _ _ (by omega), hstore, htake, hdrop, List.length_cons]
    simp

/-- The payload bytes of a response in wire order. -/
def serialPayload (raw : Vector UInt8 kSerialBytes) : List UInt8 :=
  (List.finRange kSerialWords).flatMap fun i => [wordByte raw i 0, wordByte raw i 1]

@[simp] theorem length_serialPayload (raw : Vector UInt8 kSerialBytes) :
    (serialPayload raw).length = kSerialWords * 2 := by
  have hpairs (words : List (Fin kSerialWords)) :
      (words.flatMap fun i => [wordByte raw i 0, wordByte raw i 1]).length = words.length * 2 := by
    induction words with
    | nil => rfl
    | cons i words ih =>
      rw [List.flatMap_cons, List.length_append, ih, List.length_cons, List.length_cons]
      simp only [List.length_cons, List.length_nil]
      omega
  rw [serialPayload, hpairs, List.length_finRange]

/-- The loop over the words stores their payload bytes at the cursor, and leaves
    the cursor behind them. -/
theorem foldl_storeWord (raw : Vector UInt8 kSerialBytes) (words : List (Fin kSerialWords))
    (n : Nat) (out : CharBuffer) :
    words.foldl (storeWord raw) (n, out) =
      (n + 2 * words.length,
        out.storeFrom n (words.flatMap fun i => [wordByte raw i 0, wordByte raw i 1])) := by
  induction words generalizing n out with
  | nil => rfl
  | cons i words ih =>
    rw [List.foldl_cons, storeWord, ih]
    simp only [List.flatMap_cons, CharBuffer.storeFrom_append, List.length_cons,
      CharBuffer.storeFrom]
    congr 1
    omega

/-- An accepted response is stored with a terminator behind its payload. -/
theorem parseSerialNumber_eq (raw : Vector UInt8 kSerialBytes) (out : CharBuffer) :
    parseSerialNumber raw out =
      (checkWordsCrc kSerialWords raw,
        if checkWordsCrc kSerialWords raw then out.storeFrom 0 (serialPayload raw ++ [0])
        else out) := by
  rw [parseSerialNumber, foldl_storeWord]
  cases checkWordsCrc kSerialWords raw with
  | false => rfl
  | true =>
    rw [CharBuffer.storeFrom_append, length_serialPayload]
    rfl

/-- The words of a text, two characters each, padded with zeros. -/
def serialWords (text : List UInt8) (i : Fin kSerialWords) : UInt16 :=
  (text.getD (2 * i) 0).toUInt16 <<< 8 ||| (text.getD (2 * i + 1) 0).toUInt16

/-- The response that carries a text. -/
def encodeSerial (text : List UInt8) : Vector UInt8 kSerialBytes := encodeWords (serialWords text)

private theorem flatMap_pairs (f : Nat → UInt8) (n : Nat) :
    (List.range n).flatMap (fun i => [f (2 * i), f (2 * i + 1)]) = (List.range (2 * n)).map f := by
  induction n with
  | zero => rfl
  | succ n ih =>
    rw [List.range_succ, List.flatMap_append, ih, show 2 * (n + 1) = 2 * n + 1 + 1 by omega,
      List.range_succ, List.range_succ]
    simp

/-- The payload of an encoded text is the text followed by its padding. -/
theorem serialPayload_encodeSerial {text : List UInt8} (hfits : text.length ≤ kSerialWords * 2) :
    serialPayload (encodeSerial text) =
      text ++ List.replicate (kSerialWords * 2 - text.length) 0 := by
  have hbytes : serialPayload (encodeSerial text) =
      ((List.finRange kSerialWords).map Fin.val).flatMap fun i =>
        [text.getD (2 * i) 0, text.getD (2 * i + 1) 0] := by
    simp only [serialPayload, encodeSerial, wordByte_encodeWords, wireByte, serialWords,
      toUInt8_bigEndian_shiftRight, toUInt8_bigEndian, List.flatMap_map]
  have hindices : (List.finRange kSerialWords).map Fin.val = List.range kSerialWords := by simp
  rw [hbytes, hindices, flatMap_pairs (text.getD · 0)]
  apply List.ext_getElem
  · simp
    omega
  · intro j hj _
    simp [List.getElem_append, List.getD_eq_getElem?_getD]
    split <;> simp_all

/-- A terminator behind a buffer does not change the text read from it. -/
private theorem takeWhile_append_nul (text : List UInt8) :
    (text ++ [0]).takeWhile (· != 0) = text.takeWhile (· != 0) := by
  induction text with
  | nil => rfl
  | cons c text ih => by_cases hc : c = 0 <;> simp [hc, ih]

/-- Reading a text that is followed by nothing but zeros stops at its end. -/
private theorem takeWhile_append_padding {text : List UInt8} (hnul : 0 ∉ text) (n : Nat) :
    (text ++ List.replicate n 0).takeWhile (· != 0) = text := by
  rw [List.takeWhile_append_of_pos]
  · cases n <;> simp [List.replicate_succ]
  · intro c hc
    have hne : c ≠ 0 := fun h => hnul (h ▸ hc)
    simpa using hne

section

variable {σ : Type} (bus : Bus σ) (s : σ)

/-- A serial number is stored only from a response whose every CRC matches. -/
theorem readSerialNumber_run (out : CharBuffer) :
    (readSerialNumber out).run bus s =
      let sent := bus.write s Command.getSerialNumber.bytes
      if sent.1 ≠ 0 then ((sent.1, out), sent.2)
      else
        let answer := bus.read sent.2 kSerialBytes
        if answer.1.1 ≠ 0 then ((answer.1.1, out), answer.2)
        else if checkWordsCrc kSerialWords answer.1.2 then
          ((0, out.storeFrom 0 (serialPayload answer.1.2 ++ [0])), answer.2)
        else ((eio, out), answer.2) := by
  simp only [readSerialNumber, Transfer.run_locked, Transfer.run_bind, Transfer.run_ite,
    Transfer.run_pure]
  dsimp +instances only [sendCommand_run, msleep_run, readBytes_run]
  simp only [parseSerialNumber_eq]
  split
  · rfl
  split
  · rfl
  split <;> simp_all

end

/-- Whatever the response and the buffer, a parse stores inside the buffer only.
    An accepted response leaves its payload and a terminator there, so that the
    C string is the payload up to its first NUL. A rejected one, and a read that
    fails, leave the buffer alone. Every text of up to 32 characters without a
    NUL survives the trip over the wire. -/
theorem parseSerialNumber_lossless (out : CharBuffer) :
    (∀ raw, ∃ written, (parseSerialNumber raw out).2.stored = written ++ out.stored ∧
      ∀ n ∈ written, n < kSerialChars) ∧
    (∀ raw, (∀ i, crc [wordByte raw i 0, wordByte raw i 1] = wordByte raw i 2) →
      (parseSerialNumber raw out).1 = true ∧
      (parseSerialNumber raw out).2.chars.toList = serialPayload raw ++ [0] ∧
      (parseSerialNumber raw out).2.cString = (serialPayload raw).takeWhile (· != 0)) ∧
    (∀ raw, ¬ (∀ i, crc [wordByte raw i 0, wordByte raw i 1] = wordByte raw i 2) →
      parseSerialNumber raw out = (false, out)) ∧
    (∀ text : List UInt8, 0 ∉ text → text.length ≤ 32 →
      (parseSerialNumber (encodeSerial text) out).1 = true ∧
      (parseSerialNumber (encodeSerial text) out).2.cString = text) ∧
    (∀ (σ : Type) (bus : Bus σ) (s : σ), ((readSerialNumber out).run bus s).1.1 ≠ 0 →
      ((readSerialNumber out).run bus s).1.2 = out) := by
  have hlength (raw : Vector UInt8 kSerialBytes) :
      (serialPayload raw ++ [0]).length = kSerialChars := by
    rw [List.length_append, length_serialPayload]
    rfl
  have hchars (raw : Vector UInt8 kSerialBytes) :
      (out.storeFrom 0 (serialPayload raw ++ [0])).chars.toList = serialPayload raw ++ [0] := by
    have hroom : 0 + (serialPayload raw ++ [0]).length ≤ kSerialChars := by rw [hlength, Nat.zero_add]
    have hend : out.chars.toList.length ≤ 0 + kSerialChars := by
      rw [Vector.length_toList, Nat.zero_add]
    rw [CharBuffer.chars_storeFrom _ _ _ hroom, hlength, List.take_zero,
      List.drop_of_length_le hend, List.nil_append, List.append_nil]
  have hstring (raw : Vector UInt8 kSerialBytes) :
      (out.storeFrom 0 (serialPayload raw ++ [0])).cString =
        (serialPayload raw).takeWhile (· != 0) := by
    rw [CharBuffer.cString, hchars, takeWhile_append_nul]
  refine ⟨fun raw => ?_, fun raw hcrc => ?_, fun raw hcrc => ?_, fun text hnul hfits => ?_,
    fun σ bus s herr => ?_⟩
  · rw [parseSerialNumber_eq]
    cases checkWordsCrc kSerialWords raw with
    | false => exact ⟨[], rfl, by simp⟩
    | true =>
      refine ⟨_, CharBuffer.stored_storeFrom _ _ _, ?_⟩
      intro n hn
      rw [hlength, List.mem_reverse, List.mem_range'_1] at hn
      omega
  · rw [← checkWordsCrc_iff] at hcrc
    rw [parseSerialNumber_eq, hcrc]
    exact ⟨rfl, hchars raw, hstring raw⟩
  · rw [← checkWordsCrc_iff, Bool.not_eq_true] at hcrc
    rw [parseSerialNumber_eq, hcrc]
    rfl
  · have hcrc : checkWordsCrc kSerialWords (encodeSerial text) = true :=
      checkWordsCrc_encodeWords _
    rw [parseSerialNumber_eq, hcrc]
    refine ⟨rfl, ?_⟩
    rw [if_pos rfl, hstring, serialPayload_encodeSerial hfits, takeWhile_append_padding hnul]
  · rw [readSerialNumber_run] at herr ⊢
    dsimp only at herr ⊢
    split_ifs at herr ⊢
    · rfl
    · rfl
    · exact absurd rfl herr
    · rfl

/-- A text of the greatest length leaves room for the terminator only. -/
theorem parseSerialNumber_lossless_longest :
    (parseSerialNumber (encodeSerial (List.replicate 32 0x41)) ⟨Vector.replicate _ 0, []⟩).2.cString =
      List.replicate 32 0x41 :=
  ((parseSerialNumber_lossless _).2.2.2.1 _ (by decide) (by decide)).2

end Sen66
