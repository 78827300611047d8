import TableStore.Uuid

/-!
# Identifiers and their texts

The written form of an identifier is read as this identifier (`Uuid.read?_text`), so that different
identifiers have different texts (`Uuid.text_injective`). The order of identifiers, which is that of
their bits, tells them apart.
-/

namespace TableStore.Uuid

open Text

/-! ### Digits -/

theorem readHex_append (m : Nat) (a b : List Char) :
    readHex m (a ++ b) = (readHex m a).bind fun n => readHex n b := by
  induction a generalizing m with
  | nil => rfl
  | cons c a ih =>
    simp only [List.cons_append, readHex]
    cases hexValue? c with
    | none => rfl
    | some v => exact ih _

/-- Digits are read as the number they write. -/
theorem readHex_hexText (m width n : Nat) :
    readHex m (hexText width n) = some (m * Nat.pow 16 width + n % Nat.pow 16 width) := by
  induction width generalizing n with
  | zero => simp [hexText, readHex, Nat.mod_one]
  | succ width ih =>
    rw [hexText, readHex_append, ih, Option.bind_some, readHex,
      hexValue?_hexDigit (Nat.mod_lt n (by decide))]
    simp only [readHex, bind, Option.bind_some, Option.some.injEq]
    -- the last digit is what the other digits leave
    have hsplit : n % Nat.pow 16 (width + 1) = n / 16 % Nat.pow 16 width * 16 + n % 16 := by
      rw [show Nat.pow 16 (width + 1) = 16 * Nat.pow 16 width from Nat.pow_succ', Nat.mod_mul,
        Nat.add_comm, Nat.mul_comm]
    rw [hsplit, show Nat.pow 16 (width + 1) = Nat.pow 16 width * 16 from rfl, Nat.add_mul,
      Nat.mul_assoc, Nat.add_assoc]

/-- An identifier is read back from its digits. -/
theorem readDigits?_digits (u : Uuid) : readDigits? u.digits = some u := by
  have hbits : u.bits.toNat % Nat.pow 16 32 = u.bits.toNat := Nat.mod_eq_of_lt u.bits.isLt
  rw [readDigits?, digits, if_pos (length_hexText _ _), readHex_hexText, hbits, Option.map_some,
    Nat.zero_mul, Nat.zero_add, BitVec.ofNat_toNat, BitVec.setWidth_eq]

theorem length_digits (u : Uuid) : u.digits.length = 32 :=
  length_hexText _ _

theorem hyphen_notMem_digits (u : Uuid) : '-' ∉ u.digits := fun hmem => by
  obtain ⟨d, hd, heq⟩ := mem_hexText hmem
  exact hexDigit_ne_hyphen hd heq.symm

/-! ### Groups of digits -/

theorem length_hyphenate {ds : List Char} (h : ds.length = 32) : (hyphenate ds).length = 36 := by
  simp [hyphenate, h]

/-- Groups of digits are read back from between their hyphens. -/
theorem readHyphenated?_hyphenate {ds : List Char} (hlength : ds.length = 32) (h : '-' ∉ ds) :
    readHyphenated? (hyphenate ds) = readDigits? ds := by
  have htake : ∀ n (l : List Char), (∀ c ∈ l, c ∈ ds) → '-' ∉ l.take n := fun n l hl hmem =>
    h (hl _ (List.mem_of_mem_take hmem))
  have hdrop : ∀ n, ∀ c ∈ ds.drop n, c ∈ ds := fun n c => List.mem_of_mem_drop
  have hpieces : pieces '-' (hyphenate ds) =
      [ds.take 8, (ds.drop 8).take 4, (ds.drop 12).take 4, (ds.drop 16).take 4, ds.drop 20] := by
    rw [hyphenate]
    simp only [List.append_assoc, List.cons_append]
    rw [pieces_append (htake 8 ds fun _ => id), pieces_append (htake 4 _ (hdrop 8)),
      pieces_append (htake 4 _ (hdrop 12)), pieces_append (htake 4 _ (hdrop 16)),
      pieces_of_notMem fun hmem => h (hdrop 20 _ hmem)]
  have hjoin : ds.take 8 ++ (ds.drop 8).take 4 ++ (ds.drop 12).take 4 ++ (ds.drop 16).take 4 ++
      ds.drop 20 = ds := by
    have hgroup : ∀ n, (ds.drop n).take 4 ++ ds.drop (n + 4) = ds.drop n := fun n => by
      rw [← List.drop_drop, List.take_append_drop]
    rw [List.append_assoc, List.append_assoc, List.append_assoc, hgroup 16, hgroup 12, hgroup 8,
      List.take_append_drop]
  rw [readHyphenated?, hpieces]
  simp only [hjoin]
  rw [if_pos (by simp [hlength])]

/-- **An identifier is read back from its text.** -/
theorem read?_text (u : Uuid) : read? u.text = some u := by
  have hlength := length_hyphenate u.length_digits
  rw [read?, text, String.toList_ofList]
  simp only [hlength]
  rw [readHyphenated?_hyphenate u.length_digits u.hyphen_notMem_digits, readDigits?_digits]

theorem text_injective : Function.Injective text := fun u v h => by
  have hu := read?_text u
  rw [h, read?_text] at hu
  exact (Option.some_inj.mp hu).symm

/-! ### Their order -/

instance transCmp_uuid : Std.TransOrd Uuid :=
  inferInstanceAs (Std.TransCmp (compareOn fun u : Uuid => u.bits.toNat))

instance lawfulEq_uuid : Std.LawfulEqOrd Uuid where
  eq_of_compare h :=
    congrArg Uuid.mk (BitVec.eq_of_toNat_eq (Nat.compare_eq_eq.mp h))

end TableStore.Uuid
