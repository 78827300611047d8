import Mathlib.Order.Compare
import Mathlib.Data.String.Basic
import TableStore.Text.Utf8

/-!
# The order of texts

Texts are ordered by their characters, the engine compares them by their bytes. The two orders are
one (`Text.Utf8.compare_encode`): the bytes of two characters first differ where those of the
smaller character have the smaller byte (`below_charBytes`), whatever comes after them.
-/

namespace TableStore.Text.Utf8

/-! ### Bytes of texts -/

/-- The bytes of a character. -/
def charBytes (c : Char) : List Nat :=
  (String.utf8EncodeChar c).map UInt8.toNat

theorem toList_loop (bytes : ByteArray) (i : Nat) (sofar : List UInt8) :
    ByteArray.toList.loop bytes i sofar = sofar.reverse ++ bytes.data.toList.drop i := by
  induction i, sofar using ByteArray.toList.loop.induct bytes with
  | case1 i sofar hlt ih =>
    have hget : bytes.data.toList.drop i = bytes.get! i :: bytes.data.toList.drop (i + 1) := by
      rw [List.drop_eq_getElem_cons (by simpa using hlt), Array.getElem_toList]
      exact congrArg (· :: _) (getElem!_pos bytes.data i (by simpa using hlt)).symm
    rw [ByteArray.toList.loop, if_pos hlt, ih, hget, List.reverse_cons, List.append_assoc,
      List.singleton_append]
  | case2 i sofar hge =>
    have hnone : bytes.data.toList.drop i = [] := List.drop_eq_nil_of_le (by simpa using hge)
    rw [ByteArray.toList.loop, if_neg hge, hnone, List.append_nil]

/-- The bytes of a text are those of its characters. -/
theorem encode_eq (s : String) : encode s = s.toList.flatMap charBytes := by
  have hdata : s.toUTF8.toList = s.toList.flatMap String.utf8EncodeChar := by
    rw [ByteArray.toList, toList_loop, List.reverse_nil, List.nil_append, List.drop_zero,
      String.toUTF8_eq_toByteArray, ← String.utf8Encode_toList, List.utf8Encode,
      List.data_toByteArray]
  rw [encode, hdata, List.map_flatMap]
  rfl

/-! ### The first byte that differs -/

/-- At the first byte where they differ the one list has the smaller byte. -/
inductive Below : List Nat → List Nat → Prop where
  | here {a b : Nat} (h : a < b) (as bs : List Nat) : Below (a :: as) (b :: bs)
  | later (n : Nat) {as bs : List Nat} (h : Below as bs) : Below (n :: as) (n :: bs)

theorem Below.compare_append {as bs : List Nat} (h : Below as bs) (as' bs' : List Nat) :
    compare (as ++ as') (bs ++ bs') = .lt := by
  induction h with
  | here h =>
    rw [List.compare_eq_compareLex, List.cons_append, List.cons_append,
      List.compareLex_cons_cons, Nat.compare_eq_lt.mpr h]
    rfl
  | later n _ ih =>
    rw [List.compare_eq_compareLex] at ih ⊢
    rw [List.cons_append, List.cons_append, List.compareLex_cons_cons, Nat.compare_eq_eq.mpr rfl]
    exact ih

/-- The bytes of the character with a number: as many as it takes. -/
def numberBytes (n : Nat) : List Nat :=
  if n ≤ 127 then [n]
  else if n ≤ 2047 then [n / 64 + 192, n % 64 + 128]
  else if n ≤ 65535 then [n / 4096 + 224, n / 64 % 64 + 128, n % 64 + 128]
  else [n / 262144 + 240, n / 4096 % 64 + 128, n / 64 % 64 + 128, n % 64 + 128]

theorem charBytes_eq (c : Char) : charBytes c = numberBytes c.toNat := by
  have hmax : c.toNat < 1114112 := by
    rcases c.valid with h | h
    · exact Nat.lt_trans h (by decide)
    · exact h.2
  rw [charBytes, String.utf8EncodeChar.eq_1, numberBytes]
  show List.map _ (if c.toNat ≤ _ then [UInt8.ofNat c.toNat]
    else if c.toNat ≤ _ then
      [UInt8.ofNat (c.toNat / 64 % 32 + 192), UInt8.ofNat (c.toNat % 64 + 128)]
    else if c.toNat ≤ _ then [UInt8.ofNat (c.toNat / 4096 % 16 + 224),
      UInt8.ofNat (c.toNat / 64 % 64 + 128), UInt8.ofNat (c.toNat % 64 + 128)]
    else [UInt8.ofNat (c.toNat / 262144 % 8 + 240), UInt8.ofNat (c.toNat / 4096 % 64 + 128),
      UInt8.ofNat (c.toNat / 64 % 64 + 128), UInt8.ofNat (c.toNat % 64 + 128)]) = _
  generalize c.toNat = n at hmax
  split
  · simp; omega
  · split
    · simp; omega
    · split
      · simp; omega
      · simp; omega

theorem below_cons {a b : Nat} {as bs : List Nat} (h : a ≤ b) (hrest : a = b → Below as bs) :
    Below (a :: as) (b :: bs) := by
  rcases Nat.lt_or_eq_of_le h with hlt | rfl
  · exact .here hlt as bs
  · exact .later a (hrest rfl)

theorem below_numberBytes {m n : Nat} (h : m < n) : Below (numberBytes m) (numberBytes n) := by
  unfold numberBytes
  split_ifs
  -- the first byte tells how many there are; of as many the first quotients that differ decide
  all_goals first
    | omega
    | exact .here (by omega) _ _
    | exact below_cons (by omega) fun _ => .here (by omega) _ _
    | exact below_cons (by omega) fun _ => below_cons (by omega) fun _ => .here (by omega) _ _
    | exact below_cons (by omega) fun _ => below_cons (by omega) fun _ =>
        below_cons (by omega) fun _ => .here (by omega) _ _

/-! ### The order of texts -/

theorem charBytes_ne_nil (c : Char) : charBytes c ≠ [] := by
  rw [charBytes_eq, numberBytes]
  split_ifs <;> simp

theorem compare_append_left (front as bs : List Nat) :
    compare (front ++ as) (front ++ bs) = compare as bs := by
  induction front with
  | nil => rfl
  | cons n front ih =>
    rw [List.compare_eq_compareLex] at ih ⊢
    rw [List.cons_append, List.cons_append, List.compareLex_cons_cons, Nat.compare_eq_eq.mpr rfl]
    exact ih

theorem compare_flatMap {cs ds : List Char} (h : cs < ds) :
    compare (cs.flatMap charBytes) (ds.flatMap charBytes) = .lt := by
  induction cs generalizing ds with
  | nil =>
    cases ds with
    | nil => exact absurd h (lt_irrefl _)
    | cons d ds =>
      obtain ⟨b, bs, hd⟩ := List.exists_cons_of_ne_nil (charBytes_ne_nil d)
      rw [List.flatMap_cons, hd]
      rfl
  | cons c cs ih =>
    cases ds with
    | nil => exact absurd h (List.not_lt_nil _)
    | cons d ds =>
      rw [List.flatMap_cons, List.flatMap_cons]
      rcases List.cons_lt_cons_iff.mp h with hlt | ⟨rfl, hrest⟩
      · rw [charBytes_eq, charBytes_eq]
        exact (below_numberBytes hlt).compare_append _ _
      · rw [compare_append_left]
        exact ih hrest

theorem compare_encode_of_lt {s t : String} (h : s < t) : compare (encode s) (encode t) = .lt := by
  rw [encode_eq, encode_eq]
  exact compare_flatMap (String.lt_iff_toList_lt.mp h)

/-- **Texts are ordered like their bytes.** -/
theorem compare_encode (s t : String) : compare (encode s) (encode t) = compare s t := by
  rcases lt_trichotomy s t with h | rfl | h
  · rw [compare_encode_of_lt h, compare_lt_iff_lt.mpr h]
  · exact Std.ReflCmp.compare_self.trans Std.ReflCmp.compare_self.symm
  · have hswap : compare (encode s) (encode t) = (compare (encode t) (encode s)).swap :=
      Std.OrientedCmp.eq_swap
    rw [hswap, compare_encode_of_lt h, compare_gt_iff_gt.mpr h]
    rfl

end TableStore.Text.Utf8
