import Mathlib.Data.List.Basic
import Scriptlet.Cache.Key

/-!
What a fingerprint tells apart. A source is any text and may hold zero bytes itself, so the message
cannot be cut from the left. It is cut from the right: a type name holds no zero, so the last zero
stands in front of the result and the one before it in front of the context.
-/

namespace Scriptlet

namespace CacheKey

variable {τ : Type} [TypeNames τ]

/-! ### The bytes of a text -/

theorem bytes_loop (bytes : ByteArray) (i : Nat) (seen : List UInt8) :
    ByteArray.toList.loop bytes i seen = seen.reverse ++ bytes.data.toList.drop i := by
  fun_induction ByteArray.toList.loop bytes i seen with
  | case1 i seen hi ih =>
      have hlength : i < bytes.data.toList.length := by simpa using hi
      rw [ih, List.drop_eq_getElem_cons hlength]
      simp [ByteArray.get!, hi]
  | case2 i seen hi =>
      rw [List.drop_eq_nil_of_le (by simpa using Nat.le_of_not_lt hi), List.append_nil]

theorem bytes_eq (s : String) : s.toUTF8.toList = s.toUTF8.data.toList := by
  rw [ByteArray.toList, bytes_loop, List.reverse_nil, List.nil_append, List.drop_zero]

theorem bytes_inj {s t : String} : s.toUTF8.toList = t.toUTF8.toList ↔ s = t := by
  rw [bytes_eq, bytes_eq, Array.toList_inj, ← ByteArray.ext_iff, String.toUTF8_eq_toByteArray,
    String.toUTF8_eq_toByteArray, String.toByteArray_inj]

theorem bytes_flatMap (s : String) : s.toUTF8.toList = s.toList.flatMap String.utf8EncodeChar := by
  obtain ⟨cs, rfl⟩ : ∃ cs, s = String.ofList cs := ⟨s.toList, String.ofList_toList.symm⟩
  rw [bytes_eq, String.toUTF8_eq_toByteArray, String.toByteArray_ofList, String.toList_ofList,
    List.utf8Encode, List.data_toByteArray]

theorem zero_eq_ofNat_iff {n : Nat} : (0 : UInt8) = UInt8.ofNat n ↔ n % 256 = 0 := by
  rw [← UInt8.toNat_inj, UInt8.toNat_ofNat']
  exact eq_comm

/-- Only the character zero has a zero byte: the bytes of a longer sequence all carry a mark. -/
theorem zero_mem_utf8EncodeChar {c : Char} (h : 0 ∈ String.utf8EncodeChar c) : c = '\x00' := by
  have hvalue : c.val.toNat = 0 := by
    unfold String.utf8EncodeChar at h
    dsimp only at h
    split at h
    · simp only [List.mem_singleton, zero_eq_ofNat_iff] at h
      omega
    · split_ifs at h <;>
        simp only [List.mem_cons, zero_eq_ofNat_iff, List.not_mem_nil, or_false] at h <;> omega
  exact Char.ext (UInt32.toNat_inj.mp hvalue)

theorem zero_not_mem_bytes {s : String} (h : '\x00' ∉ s.toList) : 0 ∉ s.toUTF8.toList := by
  rw [bytes_flatMap, List.mem_flatMap]
  rintro ⟨c, hc, hzero⟩
  exact h (zero_mem_utf8EncodeChar hzero ▸ hc)

/-! ### Cutting from the right -/

/-- Two rows that are equal are cut at their last mark into equal parts. -/
theorem append_cons_inj_right {α : Type} {mark : α} {xs ys xs' ys' : List α} (hys : mark ∉ ys)
    (hys' : mark ∉ ys') : xs ++ mark :: ys = xs' ++ mark :: ys' ↔ xs = xs' ∧ ys = ys' := by
  refine ⟨fun h => ?_, by rintro ⟨rfl, rfl⟩; rfl⟩
  obtain ⟨more, hxs, hrest⟩ | ⟨more, hxs, hrest⟩ := List.append_eq_append_iff.mp h
  · cases more with
    | nil => exact ⟨by rw [hxs, List.append_nil], (List.cons.inj hrest).2⟩
    | cons x more =>
        have hmark : mark ∈ more ++ mark :: ys' := List.mem_append_right more List.mem_cons_self
        exact absurd ((List.cons.inj hrest).2 ▸ hmark) hys
  · cases more with
    | nil => exact ⟨by rw [hxs, List.append_nil], (List.cons.inj hrest).2.symm⟩
    | cons x more =>
        have hmark : mark ∈ more ++ mark :: ys := List.mem_append_right more List.mem_cons_self
        exact absurd ((List.cons.inj hrest).2 ▸ hmark) hys'

theorem encode_inj {source context result source' context' result' : String}
    (hcontext : '\x00' ∉ context.toList) (hresult : '\x00' ∉ result.toList)
    (hcontext' : '\x00' ∉ context'.toList) (hresult' : '\x00' ∉ result'.toList) :
    encode source context result = encode source' context' result' ↔
      source = source' ∧ context = context' ∧ result = result' := by
  have hcut (s c : String) (tail : List UInt8) : s.toUTF8.toList ++ 0 :: (c.toUTF8.toList ++ 0 :: tail) =
      (s.toUTF8.toList ++ 0 :: c.toUTF8.toList) ++ 0 :: tail := by
    rw [List.append_assoc, List.cons_append]
  rw [encode, encode, hcut, hcut,
    append_cons_inj_right (zero_not_mem_bytes hresult) (zero_not_mem_bytes hresult'),
    append_cons_inj_right (zero_not_mem_bytes hcontext) (zero_not_mem_bytes hcontext'),
    bytes_inj, bytes_inj, bytes_inj, and_assoc]

/-- The names of both types of a key are without a zero. -/
def NamesAreClean (key : CacheKey τ) : Prop :=
  '\x00' ∉ (TypeNames.name key.signature.context).toList ∧
    '\x00' ∉ (TypeNames.name key.signature.result).toList

/-- The keys have one source and types of the same names. -/
def ReadsLike (key key' : CacheKey τ) : Prop :=
  key.source = key'.source ∧
    TypeNames.name key.signature.context = TypeNames.name key'.signature.context ∧
    TypeNames.name key.signature.result = TypeNames.name key'.signature.result

theorem message_inj {key key' : CacheKey τ} (h : key.NamesAreClean) (h' : key'.NamesAreClean) :
    key.message = key'.message ↔ key.ReadsLike key' :=
  encode_inj h.1 h.2 h'.1 h'.2

/-! ### Digits of the digest -/

theorem digitChar_inj : ∀ m < 16, ∀ n < 16, m.digitChar = n.digitChar → m = n := by
  decide

theorem hexDigits_cons (b : UInt8) (bytes : List UInt8) :
    Sha256.hexDigits (b :: bytes) =
      (b.toNat / 16).digitChar :: (b.toNat % 16).digitChar :: Sha256.hexDigits bytes := rfl

theorem take_hexDigits (n : Nat) (bytes : List UInt8) :
    (Sha256.hexDigits bytes).take (2 * n) = Sha256.hexDigits (bytes.take n) := by
  induction n generalizing bytes with
  | zero => rfl
  | succ n ih =>
      cases bytes with
      | nil => rfl
      | cons b bytes =>
          rw [hexDigits_cons, List.take_succ_cons, hexDigits_cons, ← ih, Nat.mul_succ,
            List.take_succ_cons, List.take_succ_cons]

theorem hexDigits_inj {bytes bytes' : List UInt8}
    (h : Sha256.hexDigits bytes = Sha256.hexDigits bytes') : bytes = bytes' := by
  induction bytes generalizing bytes' with
  | nil =>
      cases bytes' with
      | nil => rfl
      | cons b' bytes' => cases h
  | cons b bytes ih =>
      cases bytes' with
      | nil => cases h
      | cons b' bytes' =>
          rw [hexDigits_cons, hexDigits_cons] at h
          obtain ⟨hhigh, h⟩ := List.cons.inj h
          obtain ⟨hlow, h⟩ := List.cons.inj h
          have hb := b.toNat_lt
          have hb' := b'.toNat_lt
          have hhigh := digitChar_inj _ (by omega) _ (by omega) hhigh
          have hlow := digitChar_inj _ (by omega) _ (by omega) hlow
          rw [ih h, UInt8.toNat_inj.mp (by omega : b.toNat = b'.toNat)]

/-- A fingerprint is the first six bytes of the digest. -/
theorem fingerprint_eq_iff {key key' : CacheKey τ} :
    key.fingerprint = key'.fingerprint ↔
      (Sha256.digest key.message).take 6 = (Sha256.digest key'.message).take 6 := by
  rw [fingerprint, fingerprint, String.ofList_inj, take_hexDigits 6, take_hexDigits 6]
  exact ⟨hexDigits_inj, congrArg _⟩

/-- What is digested of a source and two type names without a zero determines the three, whatever
the source holds. So two keys that differ in one of them have one fingerprint only where different
messages have digests that begin with the same six bytes. -/
theorem fingerprints_unambiguous :
    (∀ source context result source' context' result' : String,
      '\x00' ∉ context.toList → '\x00' ∉ result.toList →
      '\x00' ∉ context'.toList → '\x00' ∉ result'.toList →
      (encode source context result = encode source' context' result' ↔
        source = source' ∧ context = context' ∧ result = result')) ∧
    ∀ key key' : CacheKey τ, key.NamesAreClean → key'.NamesAreClean →
      (key.message = key'.message ↔ key.ReadsLike key') ∧
      (key.fingerprint = key'.fingerprint ↔
        key.ReadsLike key' ∨
        (key.message ≠ key'.message ∧
          (Sha256.digest key.message).take 6 = (Sha256.digest key'.message).take 6)) := by
  refine ⟨fun _ _ _ _ _ _ hc hr hc' hr' => encode_inj hc hr hc' hr', fun key key' h h' =>
    ⟨message_inj h h', ?_⟩⟩
  rw [fingerprint_eq_iff, ← message_inj h h']
  constructor
  · intro hdigest
    by_cases hmessage : key.message = key'.message
    · exact Or.inl hmessage
    · exact Or.inr ⟨hmessage, hdigest⟩
  · rintro (hmessage | ⟨-, hdigest⟩)
    · rw [hmessage]
    · exact hdigest

/-- A source that ends like the separator and a type name is not taken for a shorter source. -/
theorem fingerprints_unambiguous_of_zeros :
    let _ : TypeNames Bool := ⟨fun wide => if wide then "i64" else "()"⟩
    let key : CacheKey Bool := ⟨"1\x00i64", ⟨false, true⟩⟩
    let key' : CacheKey Bool := ⟨"1", ⟨true, false⟩⟩
    key.NamesAreClean ∧ key'.NamesAreClean ∧ key.message ≠ key'.message ∧
      encode "1\x00i64" "()" "i64" ≠ encode "1" "i64" "()" := by
  intro names key key'
  have hclean : key.NamesAreClean := ⟨by decide, by decide⟩
  have hclean' : key'.NamesAreClean := ⟨by decide, by decide⟩
  have hsource : "1\x00i64" ≠ "1" := by decide
  refine ⟨hclean, hclean', fun h => ?_, fun h => ?_⟩
  · have hsame := ((fingerprints_unambiguous.2 key key' hclean hclean').1.mp h).1
    exact hsource hsame
  · have hsame := (fingerprints_unambiguous (τ := Bool)).1 "1\x00i64" "()" "i64" "1" "i64" "()"
      (by decide) (by decide) (by decide) (by decide) |>.mp h
    exact hsource hsame.1

end CacheKey

end Scriptlet
