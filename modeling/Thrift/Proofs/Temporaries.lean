-- The names of temporaries. Each one ends in the number under which it was given out, so names
-- with different numbers differ whatever their stems are.
import Thrift.Codec.Draft

namespace Thrift

namespace Names

/-- The name that a stem gets under a number. -/
def temporary (stem : String) (n : Nat) : String := s!"{stem}_{n}"

theorem toList_temporary (stem : String) (n : Nat) :
    (temporary stem n).toList = stem.toList ++ '_' :: Nat.toDigits 10 n := by
  simp [temporary, toString, Nat.toList_repr]

/-- What stands behind the last underscore. -/
theorem takeWhile_reverse_temporary (stem : String) (n : Nat) :
    ((temporary stem n).toList.reverse.takeWhile (· != '_')) = (Nat.toDigits 10 n).reverse := by
  have hdigits : ∀ c ∈ (Nat.toDigits 10 n).reverse, (c != '_') = true := by
    intro c hc
    rw [bne_iff_ne]
    rintro rfl
    exact Nat.underscore_not_in_toDigits (List.mem_reverse.mp hc)
  rw [toList_temporary, List.reverse_append, List.reverse_cons, List.append_assoc,
    List.takeWhile_append_of_pos hdigits]
  simp

theorem temporary_number {a b : String} {i j : Nat} (h : temporary a i = temporary b j) :
    i = j := by
  have hd : Nat.toDigits 10 i = Nat.toDigits 10 j := by
    rw [← List.reverse_inj, ← takeWhile_reverse_temporary a, ← takeWhile_reverse_temporary b, h]
  rw [← Nat.ofDigitChars_ten_toDigits (n := i), hd, Nat.ofDigitChars_ten_toDigits]

theorem underscore_mem_temporary (stem : String) (n : Nat) : '_' ∈ (temporary stem n).toList := by
  rw [toList_temporary]
  simp

end Names

end Thrift
