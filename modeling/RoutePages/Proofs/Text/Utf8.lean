import Mathlib.Data.Char
import RoutePages.Text.Utf8

/-!
# What bytes are text

Bytes are read as a text exactly when they are the bytes of that text. So two texts never have the
same bytes, and bytes that are no text have no character read from them.
-/
namespace RoutePages.Utf8

variable {n least : Nat} {s t : Text} {bytes rest : Bytes} {a b c d : UInt8} {r : Option Text}

theorem cons?_eq_some : cons? n least r = some s ↔
    least ≤ n ∧ n.isValidChar ∧ ∃ t, r = some t ∧ s = Char.ofNat n :: t := by
  unfold cons?
  split
  · rename_i h
    rw [Option.map_eq_some_iff]
    exact ⟨fun ⟨t, ht, hs⟩ => ⟨h.1, h.2, t, ht, hs.symm⟩, fun ⟨_, _, t, ht, hs⟩ => ⟨t, ht, hs.symm⟩⟩
  · rename_i h
    exact ⟨nofun, fun hs => absurd ⟨hs.1, hs.2.1⟩ h⟩

theorem isTail_iff : isTail b = true ↔ b.toNat / 64 = 2 := decide_eq_true_iff

/-! ## The forms of a character -/

theorem decode?_one (ha : a.toNat < 128) : decode? (a :: rest) = cons? a.toNat 0 (decode? rest) := by
  rw [decode?.eq_def]
  exact if_pos ha

theorem decode?_two (ha : a.toNat / 32 = 6) (hb : b.toNat / 64 = 2) : decode? (a :: b :: rest) =
    cons? (a.toNat % 32 * 64 + b.toNat % 64) 128 (decode? rest) := by
  rw [decode?.eq_def]
  simp only [isTail, hb, ha]
  rw [if_neg (by omega), if_neg (by decide), if_pos trivial]

theorem decode?_three (ha : a.toNat / 16 = 14) (hb : b.toNat / 64 = 2) (hc : c.toNat / 64 = 2) :
    decode? (a :: b :: c :: rest) =
      cons? (a.toNat % 16 * 4096 + b.toNat % 64 * 64 + c.toNat % 64) 2048 (decode? rest) := by
  rw [decode?.eq_def]
  simp only [isTail, hb, hc, ha]
  rw [if_neg (by omega), if_neg (by decide), if_neg (by omega), if_neg (by decide), if_pos trivial]

theorem decode?_four (ha : a.toNat / 8 = 30) (hb : b.toNat / 64 = 2) (hc : c.toNat / 64 = 2)
    (hd : d.toNat / 64 = 2) : decode? (a :: b :: c :: d :: rest) =
      cons? (a.toNat % 8 * 262144 + b.toNat % 64 * 4096 + c.toNat % 64 * 64 + d.toNat % 64) 65536
        (decode? rest) := by
  rw [decode?.eq_def]
  simp only [isTail, hb, hc, hd, ha]
  rw [if_neg (by omega), if_neg (by decide), if_neg (by omega), if_neg (by decide),
    if_neg (by omega), if_neg (by decide)]

theorem toNat_ofNat (h : n < 256) : (UInt8.ofNat n).toNat = n := by
  rw [UInt8.toNat_ofNat']
  exact Nat.mod_eq_of_lt h

/-- The bytes of a character are read as that character. -/
theorem decode?_encodeChar (ch : Char) (rest : Bytes) :
    decode? (String.utf8EncodeChar ch ++ rest) = (decode? rest).map (ch :: ·) := by
  have hlt : ch.val.toNat < 1114112 := by
    have hvalid := ch.valid
    simp only [UInt32.isValidChar, Nat.isValidChar] at hvalid
    omega
  have hcons : ∀ {n least}, n = ch.val.toNat → least ≤ n →
      cons? n least (decode? rest) = (decode? rest).map (ch :: ·) := by
    rintro _ least rfl hleast
    rw [cons?, if_pos ⟨hleast, ch.valid⟩]
    exact congrArg (fun other => (decode? rest).map (other :: ·)) (Char.ofNat_toNat ch)
  unfold String.utf8EncodeChar
  dsimp only
  generalize ch.val.toNat = n at hlt hcons
  split_ifs with hone htwo hthree
  · have ha := toNat_ofNat (n := n) (by omega)
    rw [List.cons_append, List.nil_append, decode?_one (by omega)]
    exact hcons ha (Nat.zero_le _)
  · have ha := toNat_ofNat (n := n / 64 % 32 + 192) (by omega)
    have hb := toNat_ofNat (n := n % 64 + 128) (by omega)
    rw [List.cons_append, List.cons_append, List.nil_append, decode?_two (by omega) (by omega)]
    exact hcons (by omega) (by omega)
  · have ha := toNat_ofNat (n := n / 4096 % 16 + 224) (by omega)
    have hb := toNat_ofNat (n := n / 64 % 64 + 128) (by omega)
    have hc := toNat_ofNat (n := n % 64 + 128) (by omega)
    rw [List.cons_append, List.cons_append, List.cons_append, List.nil_append,
      decode?_three (by omega) (by omega) (by omega)]
    exact hcons (by omega) (by omega)
  · have ha := toNat_ofNat (n := n / 262144 % 8 + 240) (by omega)
    have hb := toNat_ofNat (n := n / 4096 % 64 + 128) (by omega)
    have hc := toNat_ofNat (n := n / 64 % 64 + 128) (by omega)
    have hd := toNat_ofNat (n := n % 64 + 128) (by omega)
    rw [List.cons_append, List.cons_append, List.cons_append, List.cons_append, List.nil_append,
      decode?_four (by omega) (by omega) (by omega) (by omega)]
    exact hcons (by omega) (by omega)

theorem encode_cons (ch : Char) (s : Text) : encode (ch :: s) = String.utf8EncodeChar ch ++ encode s :=
  rfl

theorem decode?_encode (s : Text) : decode? (encode s) = some s := by
  induction s with
  | nil => rfl
  | cons ch s ih => rw [encode_cons, decode?_encodeChar, ih]; rfl

theorem ofNat_eq (h : n = a.toNat) : UInt8.ofNat n = a := by
  rw [h, UInt8.ofNat_toNat]

/-- Bytes that are read as a character are the bytes of that character. -/
theorem encode_of_cons? (form : Bytes) (h : cons? n least (decode? rest) = some s)
    (hrest : ∀ {t}, decode? rest = some t → encode t = rest)
    (hform : ∀ ch : Char, ch.val.toNat = n → least ≤ n → String.utf8EncodeChar ch = form) :
    encode s = form ++ rest := by
  obtain ⟨hleast, hvalid, t, ht, rfl⟩ := cons?_eq_some.1 h
  have hnumber : (Char.ofNat n).val.toNat = n := by
    rw [Char.ofNat, dif_pos hvalid]
    rfl
  rw [encode_cons, hform _ hnumber hleast, hrest ht]

theorem encode_of_decode? (h : decode? bytes = some s) : encode s = bytes := by
  fun_induction decode? bytes generalizing s with
  | case1 =>
    cases h
    rfl
  | case2 a rest ha ih =>
    refine encode_of_cons? [a] h ih fun ch hch _ => ?_
    unfold String.utf8EncodeChar
    dsimp only
    rw [hch, if_pos (by omega), UInt8.ofNat_toNat]
  | case5 =>
    rename_i a ha b rest hb two htwo ih
    rw [Bool.not_eq_true', Bool.not_eq_false, isTail_iff] at hb
    refine encode_of_cons? [a, b] h ih fun ch hch hleast => ?_
    unfold String.utf8EncodeChar
    dsimp only
    rw [hch, if_neg (by omega), if_pos (by omega), ofNat_eq (a := a) (by omega),
      ofNat_eq (a := b) (by omega)]
  | case8 =>
    rename_i a ha b hb htwo c rest hc three hthree ih
    rw [Bool.not_eq_true', Bool.not_eq_false, isTail_iff] at hb hc
    refine encode_of_cons? [a, b, c] h ih fun ch hch hleast => ?_
    unfold String.utf8EncodeChar
    dsimp only
    rw [hch, if_neg (by omega), if_neg (by omega), if_pos (by omega), ofNat_eq (a := a) (by omega),
      ofNat_eq (a := b) (by omega), ofNat_eq (a := c) (by omega)]
  | case11 =>
    rename_i a ha b hb htwo c hc hthree d rest hd four ih
    rw [Bool.not_eq_true', Bool.not_eq_false, isTail_iff] at hb hc
    rw [Bool.or_eq_true, not_or, Bool.not_eq_true', Bool.not_eq_false, isTail_iff, bne_iff_ne,
      not_not] at hd
    refine encode_of_cons? [a, b, c, d] h ih fun ch hch hleast => ?_
    unfold String.utf8EncodeChar
    dsimp only
    rw [hch, if_neg (by omega), if_neg (by omega), if_neg (by omega), ofNat_eq (a := a) (by omega),
      ofNat_eq (a := b) (by omega), ofNat_eq (a := c) (by omega), ofNat_eq (a := d) (by omega)]
  | _ => cases h

/-- Bytes are read as a text exactly when they are its bytes. -/
theorem decode?_eq_some_iff : decode? bytes = some s ↔ bytes = encode s :=
  ⟨fun h => (encode_of_decode? h).symm, fun h => h ▸ decode?_encode s⟩

end RoutePages.Utf8
