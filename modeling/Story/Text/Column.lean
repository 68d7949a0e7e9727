/-!
# Counts of columns

Columns of indentation are counted in 32 bits. A sum that does not fit loses its higher bits, so the
count starts again from zero.
-/

namespace Story

/-- How many counts of columns there are. -/
def columnLimit : Nat := 4294967296

/-- A count of columns as it is kept. -/
def wrapped (n : Nat) : Nat := n % columnLimit

theorem wrapped_of_lt {n : Nat} (h : n < columnLimit) : wrapped n = n := Nat.mod_eq_of_lt h

theorem wrapped_mul (m n : Nat) : wrapped (wrapped m * n) = wrapped (m * n) := Nat.mod_mul_mod ..

end Story
