import RoutePages.Text.Basic

/-!
# UTF-8

Bytes are read as characters only where each character has its one shortest form.
-/
namespace RoutePages

abbrev Bytes := List UInt8

namespace Utf8

/-- The bytes of a text. -/
def encode (s : Text) : Bytes := s.flatMap String.utf8EncodeChar

/-- Does the byte continue a character? -/
def isTail (b : UInt8) : Bool := b.toNat / 64 = 2

/-- Puts the character of a number before a text. A number below `least` has a shorter form. -/
def cons? (n least : Nat) (s : Option Text) : Option Text :=
  if least ≤ n ∧ n.isValidChar then s.map (Char.ofNat n :: ·) else none

/-- The text that some bytes are, if they are one. -/
def decode? : Bytes → Option Text
  | [] => some []
  | a :: rest =>
    if a.toNat < 128 then cons? a.toNat 0 (decode? rest)
    else match rest with
      | [] => none
      | b :: rest =>
        if !isTail b then none
        else
          let two := a.toNat % 32 * 64 + b.toNat % 64
          if a.toNat / 32 = 6 then cons? two 128 (decode? rest)
          else match rest with
            | [] => none
            | c :: rest =>
              if !isTail c then none
              else
                let three := a.toNat % 16 * 4096 + b.toNat % 64 * 64 + c.toNat % 64
                if a.toNat / 16 = 14 then cons? three 2048 (decode? rest)
                else match rest with
                  | [] => none
                  | d :: rest =>
                    if !isTail d || a.toNat / 8 != 30 then none
                    else
                      let four := a.toNat % 8 * 262144 + b.toNat % 64 * 4096 +
                        c.toNat % 64 * 64 + d.toNat % 64
                      cons? four 65536 (decode? rest)

end Utf8
end RoutePages
