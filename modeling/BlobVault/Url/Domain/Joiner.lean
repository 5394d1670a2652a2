import BlobVault.Text.Mark

/-!
# Joiners in labels

The two joiners change how the letters beside them are joined. A label may hold one only where it
has an effect: behind a virama, or, for the one that parts letters, between letters that would be
joined across it.
-/

namespace BlobVault.Url

/-- Parts letters. -/
def nonJoiner : Char := '\u200c'

/-- Joins letters. -/
def joiner : Char := '\u200d'

/-- The ranges of letters that are joined: 1 on both sides, 2 only to the letter before, 3 only to
the letter behind. -/
def joiningRanges : Text.Table := .ofText
  "620 620 1, 622 625 2, 626 626 1, 627 627 2, 628 628 1, 629 629 2, 62A 62E 1, 62F 632 2,
   633 63F 1, 641 647 1, 648 648 2, 649 64A 1, 66E 66F 1, 671 673 2, 679 687 1, 688 699 2,
   69A 6BF 1, 6C0 6C0 2, 6C1 6C2 1, 6C3 6CB 2, 6CC 6CC 1, 6CD 6CD 2, 6CE 6CE 1, 6CF 6CF 2,
   6D0 6D1 1, 6D2 6D3 2, 6D5 6D5 2, 6EE 6EF 2, 6FA 6FC 1, 6FF 6FF 1, 710 710 2, 712 714 1,
   715 719 2, 71A 71D 1, 71E 71E 2, 71F 727 1, 728 728 2, 729 729 1, 72A 72A 2, 72B 72B 1,
   72C 72C 2, 72D 72E 1, 72F 74D 2, 74E 758 1, 759 75B 2, 75C 76A 1, 76B 76C 2, 76D 770 1,
   771 771 2, 772 772 1, 773 774 2, 775 777 1, 778 779 2, 77A 77F 1, 7CA 7EA 1, 840 840 2,
   841 845 1, 846 847 2, 848 848 1, 849 849 2, 84A 853 1, 854 854 2, 855 855 1, 856 858 2,
   860 860 1, 862 865 1, 867 867 2, 868 868 1, 869 882 2, 886 886 1, 889 88D 1, 88E 88E 2,
   88F 8A9 1, 8AA 8AC 2, 8AE 8AE 2, 8AF 8B0 1, 8B1 8B2 2, 8B3 8B8 1, 8B9 8B9 2, 8BA 8C8 1,
   1807 1807 1, 1820 1878 1, 1887 18AA 1, A840 A871 1, A872 A872 3, 10AC0 10AC4 1, 10AC5 10AC5 2,
   10AC7 10AC7 2, 10AC9 10ACA 2, 10ACD 10ACD 3, 10ACE 10AD2 2, 10AD3 10AD6 1, 10AD7 10AD7 3,
   10AD8 10ADC 1, 10ADD 10ADD 2, 10ADE 10AE0 1, 10AE1 10AE1 2, 10AE4 10AE4 2, 10AEB 10AEE 1,
   10AEF 10AEF 2, 10B80 10B80 1, 10B81 10B81 2, 10B82 10B82 1, 10B83 10B85 2, 10B86 10B88 1,
   10B89 10B89 2, 10B8A 10B8B 1, 10B8C 10B8C 2, 10B8D 10B8D 1, 10B8E 10B8F 2, 10B90 10B90 1,
   10B91 10B91 2, 10BA9 10BAC 2, 10BAD 10BAE 1, 10D00 10D00 3, 10D01 10D21 1, 10D22 10D22 2,
   10D23 10D23 1, 10EC2 10EC2 2, 10EC3 10EC4 1, 10EC6 10EC7 1, 10F30 10F32 1, 10F33 10F33 2,
   10F34 10F44 1, 10F51 10F53 1, 10F54 10F54 2, 10F70 10F73 1, 10F74 10F75 2, 10F76 10F81 1,
   10FB0 10FB0 1, 10FB2 10FB3 1, 10FB4 10FB6 2, 10FB8 10FB8 1, 10FB9 10FBA 2, 10FBB 10FBC 1,
   10FBD 10FBD 2, 10FBE 10FBF 1, 10FC1 10FC1 1, 10FC2 10FC3 2, 10FC4 10FC4 1, 10FC9 10FC9 2,
   10FCA 10FCA 1, 10FCB 10FCB 3, 1E922 1E943 1"

/-- Whether a character is passed over when letters are joined: every mark that takes no place, and
one modifier letter. -/
def isTransparent (c : Char) : Bool := Text.isNonspacing c || c.toNat == 0x1E94B

/-- Whether a letter is joined to the one behind it. -/
def joinsForward (c : Char) : Bool := (joiningRanges.value? c.toNat).any fun v => v = 1 || v = 3

/-- Whether a letter is joined to the one before it. -/
def joinsBackward (c : Char) : Bool := (joiningRanges.value? c.toNat).any fun v => v = 1 || v = 2

/-- Whether a character is a virama, which takes the vowel from a letter. -/
def isVirama (c : Char) : Bool := Text.combiningClass c == 9

/-- Whether a joiner may stand between characters, those before it given in reverse. -/
def allowsJoiner (c : Char) (before after : List Char) : Bool :=
  before.head?.any isVirama ||
    (c == nonJoiner && (before.find? (!isTransparent ·)).any joinsForward &&
      (after.find? (!isTransparent ·)).any joinsBackward)

/-- Whether every joiner of a label may stand where it does; what is before the label is given in
reverse. -/
def allowsJoiners : List Char → List Char → Bool
  | _, [] => true
  | before, c :: after =>
    (!(c == nonJoiner || c == joiner) || allowsJoiner c before after) &&
      allowsJoiners (c :: before) after

end BlobVault.Url
