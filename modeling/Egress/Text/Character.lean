/-!
Characters by kind. `isBlank` is Unicode's White_Space property and is what surrounding blanks are
stripped by; `isAsciiBlank` is the smaller set that ends a numeric host. Of letters only `A` to `Z`
are folded: names on the wire are ASCII, and a letter outside ASCII stays as it is.
-/

namespace Egress.Text

/-- Space, tab, line feed, form feed, carriage return. -/
def isAsciiBlank (c : Char) : Bool :=
  c == ' ' || c == '\t' || c == '\n' || c == '\x0c' || c == '\r'

def isBlank (c : Char) : Bool :=
  let n := c.toNat
  (0x09 ≤ n && n ≤ 0x0d) || n == 0x20 || n == 0x85 || n == 0xa0 || n == 0x1680 ||
    (0x2000 ≤ n && n ≤ 0x200a) || n == 0x2028 || n == 0x2029 || n == 0x202f || n == 0x205f ||
    n == 0x3000

def dropTrailing (p : Char → Bool) (cs : List Char) : List Char :=
  (cs.reverse.dropWhile p).reverse

def trim (s : String) : String :=
  String.ofList (dropTrailing isBlank (s.toList.dropWhile isBlank))

theorem isBlank_of_isDigit {c : Char} (h : c.isDigit = true) : isBlank c = false := by
  have hbounds : '0' ≤ c ∧ c ≤ '9' := by simpa [Char.isDigit, Char.le_def] using h
  have hle : 48 ≤ c.toNat ∧ c.toNat ≤ 57 := hbounds
  simp only [isBlank, Bool.or_eq_false_iff, Bool.and_eq_false_iff, beq_eq_false_iff_ne,
    decide_eq_false_iff_not]
  omega

theorem trim_of_isBlank_eq_false {s : String} (h : ∀ c ∈ s.toList, isBlank c = false) :
    trim s = s := by
  have hkeep {cs : List Char} (hcs : ∀ c ∈ cs, isBlank c = false) : cs.dropWhile isBlank = cs := by
    cases cs with
    | nil => rfl
    | cons c cs => simp [hcs c List.mem_cons_self]
  have hreverse : ∀ c ∈ s.toList.reverse, isBlank c = false :=
    fun c hc => h c (List.mem_reverse.1 hc)
  rw [trim, dropTrailing, hkeep h, hkeep hreverse, List.reverse_reverse, String.ofList_toList]

def foldCase (cs : List Char) : List Char := cs.map Char.toLower

def lower (s : String) : String := String.ofList (foldCase s.toList)

def sameFolded (a b : String) : Bool := lower a == lower b

theorem toNat_toLower (c : Char) :
    c.toLower.toNat = if 65 ≤ c.toNat ∧ c.toNat ≤ 90 then c.toNat + 32 else c.toNat := by
  unfold Char.toLower
  split <;> rename_i h
  · have hupper : 65 ≤ c.toNat ∧ c.toNat ≤ 90 := h
    have hle : c.val.toNat ≤ 90 := hupper.2
    rw [if_pos hupper]
    change (c.val + 32).toNat = c.val.toNat + 32
    rw [UInt32.toNat_add, Nat.mod_eq_of_lt]
    · rfl
    · exact Nat.lt_of_le_of_lt (Nat.add_le_add_right hle _) (by decide)
  · exact (if_neg h).symm

theorem toLower_toLower (c : Char) : c.toLower.toLower = c.toLower := by
  rw [← Char.toNat_inj, toNat_toLower c.toLower, if_neg]
  rw [toNat_toLower c]
  split <;> omega

/-- What comes before the letters is what it was. -/
theorem toLower_eq_iff {c d : Char} (h : d.toNat < 65) : c.toLower = d ↔ c = d := by
  rw [← Char.toNat_inj, ← Char.toNat_inj, toNat_toLower]
  split <;> omega

theorem toLower_eq_dot {c : Char} : c.toLower = '.' ↔ c = '.' := toLower_eq_iff (by decide)

theorem foldCase_foldCase (cs : List Char) : foldCase (foldCase cs) = foldCase cs := by
  simp only [foldCase, List.map_map, Function.comp_def, toLower_toLower]

@[simp] theorem toList_lower (s : String) : (lower s).toList = foldCase s.toList := by
  simp [lower]

end Egress.Text
