import BlobVault.Text.Mark
import BlobVault.Text.Basic

/-!
# Directions in labels

In a domain with letters that run from right to left, every label has to have one direction, so that
the labels keep their order where the domain is shown. A label runs as its first character does; in
one from left to right nothing else runs the other way, and in one from right to left no letter does
and digits are of one kind. Behind marks, a label ends in a letter or a digit.
-/

namespace BlobVault.Url

/-- How a character runs. -/
inductive Direction
  | left | right | european | arabic | neutral | nonspacing
  deriving DecidableEq, Repr

/-- The ranges of the characters that do not run from left to right, marks without a place of their
own left out: 1 from right to left, 2 European digits, 3 Arabic digits, 4 neutral. -/
def directionRanges : Text.Table := .ofText
  "A1 D7 4, F7 F7 4, 2B9 2BA 4, 2C2 2CF 4, 2D2 2ED 4, 2EF 2FF 4, 374 375 4, 37E 387 4, 3F6 3F6 4,
   58A 58F 4, 5BE 5F4 1, 606 607 4, 608 608 1, 609 60A 4, 60B 60B 1, 60C 60C 4, 60D 60D 1,
   60E 60F 4, 61B 64A 1, 660 669 3, 66A 66A 4, 66B 66C 3, 66D 6D5 1, 6DE 6DE 4, 6E5 6E6 1,
   6E9 6E9 4, 6EE 6EF 1, 6F0 6F9 2, 6FA 7F5 1, 7F6 7F9 4, 7FA 8C9 1, 9F2 9F3 4, 9FB 9FB 4,
   AF1 AF1 4, BF3 BFA 4, C78 C7E 4, E3F E3F 4, F3A F3D 4, 1390 1399 4, 1400 1400 4, 169B 169C 4,
   17DB 17DB 4, 17F0 180A 4, 1940 1945 4, 19DE 19FF 4, 1FEF 1FEF 4, 200C 214D 4, 218A 2335 4,
   237B 2394 4, 2396 26AB 4, 26AD 27FF 4, 2900 2BFF 4, 2CE5 2CEA 4, 2CF9 2CFF 4, 2E00 3004 4,
   3008 3020 4, 3030 3030 4, 3037 3037 4, 303D 303F 4, 30A0 30A0 4, 30FB 30FB 4, 31C0 31E5 4,
   4DC0 4DFF 4, A490 A4C6 4, A60D A60F 4, A673 A67F 4, A700 A721 4, A788 A788 4, A828 A82B 4,
   A838 A839 4, A874 A877 4, AB6A AB6B 4, FB1D FBC2 1, FBC3 FE46 4, FE73 FE73 1, 10101 10101 4,
   10140 1018C 4, 10190 101A0 4, 102E1 102FB 2, 10800 1091B 1, 1091F 1091F 4, 10920 10B35 1,
   10B39 10B3F 4, 10B40 10D23 1, 10D30 10D49 3, 10D4A 10D4F 1, 10D6E 10D6E 4, 10D6F 10D8F 1,
   10E60 10E7E 3, 10E80 10EC7 1, 10ED0 10ED8 4, 10F00 10FF6 1, 11052 11065 4, 11660 1166C 4,
   11FD5 11FF1 4, 16FE2 16FE2 4, 1CC00 1CEF0 4, 1D1E9 1D245 4, 1D300 1D356 4, 1E2FF 1E2FF 4,
   1E800 1ED3D 1, 1EEF0 1F12F 4, 1F16D 1F16F 4, 1F1AD 1F1AD 4, 1F260 1FBFA 4"

/-- Marks without a place of their own that run from left to right all the same. -/
def leftMarks : List Nat := [0xCBF, 0xCC6, 0x11A07, 0x11A08, 0x11C3F]

/-- The direction of a character beyond ASCII. -/
def foreignDirection (c : Char) : Direction :=
  if Text.isNonspacing c then if leftMarks.contains c.toNat then .left else .nonspacing
  else
    match directionRanges.value? c.toNat with
    | some 1 => .right
    | some 2 => .european
    | some 3 => .arabic
    | some _ => .neutral
    | none => .left

/-- The direction of a character. -/
def direction (c : Char) : Direction :=
  if c.toNat < 0x80 then
    if c.isAlpha then .left else if Text.isDigit c then .european else .neutral
  else foreignDirection c

/-- Whether a domain with this label has letters or digits that run from right to left. -/
def runsLeft (label : List Char) : Bool :=
  label.any fun c => direction c == .right || direction c == .arabic

/-- Whether a label has one direction. -/
def hasOneDirection : List Char → Bool
  | [] => true
  | first :: rest =>
    let others := ((rest.map direction).reverse.dropWhile (· == .nonspacing))
    match direction first with
    | .left =>
      others.all (fun d => d ≠ .right && d ≠ .arabic) &&
        others.head?.all (fun d => d == .left || d == .european)
    | .right =>
      others.all (· ≠ .left) && !(others.contains .european && others.contains .arabic) &&
        others.head?.all (fun d => d == .right || d == .european || d == .arabic)
    | _ => false

end BlobVault.Url
