import Evse.Net.Util

/-!
# Which texts pass for an IPv4 address

The validation adds up each group of digits in an `int` that wraps, and looks at it when the group ends; it counts the dots in another. So it accepts what is an address modulo 2 ^ 32.
-/

namespace Evse.Net

open CString

/-- Digits and three dots, and no group of digits beyond 255. A group without digits is zero. -/
structure IsIpv4 (ipstr : Text) : Prop where
  chars : ∀ c ∈ ipstr, c = dot ∨ isDigit c = true
  dots : ipstr.count dot = 3
  groups : ∀ group ∈ ipstr.splitOn dot, digitsValue group ≤ 255

/-- The same of what is left of the numbers modulo 2 ^ 32. -/
structure IsIpv4Modulo (ipstr : Text) : Prop where
  chars : ∀ c ∈ ipstr, c = dot ∨ isDigit c = true
  dots : ipstr.count dot % 2 ^ 32 = 3
  groups : ∀ group ∈ ipstr.splitOn dot, digitsValue group % 2 ^ 32 ≤ 255

/-- A group of digits, or the number of the dots, needs more than 32 bits. -/
def HasLarge (ipstr : Text) : Prop :=
  2 ^ 32 ≤ ipstr.count dot ∨ ∃ group ∈ ipstr.splitOn dot, 2 ^ 32 ≤ digitsValue group

/-! ### The counters -/

theorem wrap_le_iff (n : Nat) : (0 ≤ wrap n ∧ wrap n ≤ 255) ↔ n % 2 ^ 32 ≤ 255 := by
  rw [wrap, Int.bmod_def]
  split <;> omega

theorem wrap_eq_iff (n : Nat) : wrap n = 3 ↔ n % 2 ^ 32 = 3 := by
  rw [wrap, Int.bmod_def]
  split <;> omega

theorem wrap_succ (n : Nat) : wrap (wrap n + 1) = wrap (n + 1 : Nat) := by
  rw [wrap, wrap, Int.bmod_add_bmod, wrap, Nat.cast_succ]

theorem digitsValue_concat (digits : Text) (c : UInt8) :
    digitsValue (digits ++ [c]) = digitsValue digits * 10 + (c.toNat - 48) := by
  rw [digitsValue, List.foldl_append, ← digitsValue]
  rfl

/-- One more digit of a group. -/
theorem wrap_digit (digits : Text) {c : UInt8} (hc : isDigit c = true) :
    wrap (wrap (wrap (digitsValue digits) * 10) + (c.toNat - 48)) = wrap (digitsValue (digits ++ [c])) := by
  have hlow : 48 ≤ c.toNat := by
    simp only [isDigit, Bool.and_eq_true, decide_eq_true_eq] at hc
    exact hc.1
  have hcast : ((digitsValue (digits ++ [c]) : Nat) : Int) = digitsValue digits * 10 + (c.toNat - 48) := by
    rw [digitsValue_concat]
    omega
  rw [hcast]
  simp only [wrap, Int.bmod_add_bmod, Int.bmod_mul_bmod]

/-! ### The loop -/

/-- The loop, at the end of the digits of a group and behind so many dots: what is left continues that group and counts on. -/
theorem ipv4Loop_iff (text digits : Text) (dots : Nat) :
    ipv4Loop text (wrap (digitsValue digits)) (wrap dots) = true ↔
      (∀ c ∈ text, c = dot ∨ isDigit c = true) ∧ wrap (dots + text.count dot : Nat) = 3 ∧
        ∀ group ∈ (text.splitOn dot).modifyHead (digits ++ ·),
          0 ≤ wrap (digitsValue group) ∧ wrap (digitsValue group) ≤ 255 := by
  induction text generalizing digits dots with
  | nil =>
      simp only [ipv4Loop, List.splitOn_nil, List.modifyHead_cons, List.append_nil, List.mem_singleton, forall_eq,
        List.not_mem_nil, false_implies, implies_true, List.count_nil, Nat.add_zero, true_and, Bool.not_eq_true',
        decide_eq_false_iff_not, not_or, not_lt, not_not]
      rw [← and_assoc, and_comm]
  | cons c rest ih =>
      rw [ipv4Loop, List.splitOn_cons_eq_if_modifyHead]
      by_cases hdot : c = dot
      · have hzero : wrap (digitsValue []) = 0 := by decide
        have hgroups : (rest.splitOn dot).modifyHead ([] ++ ·) = rest.splitOn dot := by
          cases rest.splitOn dot <;> rfl
        have hrest := ih [] (dots + 1)
        rw [hzero, hgroups] at hrest
        rw [if_pos hdot, if_pos (beq_iff_eq.2 hdot), List.modifyHead_cons, List.append_nil, List.forall_mem_cons,
          List.forall_mem_cons, wrap_succ, hdot, List.count_cons_self]
        split
        · rename_i hout
          simp only [Bool.false_eq_true, false_iff]
          omega
        · rename_i hin
          rw [hrest, Nat.add_right_comm, ← Nat.add_assoc]
          simp only [true_or, true_and]
          have hle : 0 ≤ wrap (digitsValue digits) ∧ wrap (digitsValue digits) ≤ 255 := by omega
          simp only [hle, and_true, true_and]
      · have hbeq : ¬ (c == dot) = true := by rwa [beq_iff_eq]
        rw [if_neg hdot, if_neg hbeq, List.forall_mem_cons, List.count_cons_of_ne hdot]
        by_cases hdigit : isDigit c = true
        · have hgroups : ((rest.splitOn dot).modifyHead (c :: ·)).modifyHead (digits ++ ·) =
              (rest.splitOn dot).modifyHead (digits ++ [c] ++ ·) := by
            rw [List.modifyHead_modifyHead]
            congr 1
            funext group
            simp
          rw [if_pos hdigit, wrap_digit digits hdigit, ih, hgroups]
          simp only [hdigit, or_true, true_and]
        · rw [if_neg hdigit]
          simp only [Bool.false_eq_true, hdot, hdigit, or_self, false_and]

theorem netIsIpv4StrValid_iff (ipstr : Text) : netIsIpv4StrValid ipstr = true ↔ IsIpv4Modulo ipstr := by
  have hgroups : (ipstr.splitOn dot).modifyHead ([] ++ ·) = ipstr.splitOn dot := by
    cases ipstr.splitOn dot <;> rfl
  have hloop := ipv4Loop_iff ipstr [] 0
  simp only [hgroups, Nat.zero_add, wrap_eq_iff, wrap_le_iff] at hloop
  exact hloop.trans ⟨fun h => ⟨h.1, h.2.1, h.2.2⟩, fun h => ⟨h.chars, h.dots, h.groups⟩⟩

/-- Numbers of 32 bits are what is left of them. -/
theorem isIpv4_iff (ipstr : Text) : IsIpv4 ipstr ↔ IsIpv4Modulo ipstr ∧ ¬ HasLarge ipstr := by
  rw [HasLarge, not_or, not_exists]
  constructor
  · intro h
    have hdots := h.dots
    refine ⟨⟨h.chars, by omega, fun group hgroup => ?_⟩, by omega, fun group hlarge => ?_⟩
    · exact (Nat.mod_le _ _).trans (h.groups group hgroup)
    · have hgroup := h.groups group hlarge.1
      omega
  · rintro ⟨h, hfew, hsmall⟩
    have hdots := h.dots
    refine ⟨h.chars, by omega, fun group hgroup => ?_⟩
    have hmod := h.groups group hgroup
    have hlt : digitsValue group < 2 ^ 32 := not_le.1 fun hlarge => hsmall group ⟨hgroup, hlarge⟩
    omega

/-- The validation accepts the addresses, and what is an address only modulo 2 ^ 32. -/
theorem ipv4_validation_iff (ipstr : Text) :
    (netIsIpv4StrValid ipstr = true ↔ IsIpv4 ipstr) ↔ ¬ (IsIpv4Modulo ipstr ∧ HasLarge ipstr) := by
  rw [netIsIpv4StrValid_iff, isIpv4_iff]
  tauto

/-- 4294967296 is zero in 32 bits. -/
theorem ipv4_validation_wraps : netIsIpv4StrValid (ascii "4294967296.0.0.1") = true ∧
    ¬ IsIpv4 (ascii "4294967296.0.0.1") := by
  refine ⟨by decide +kernel, fun h => ?_⟩
  exact absurd (h.groups (ascii "4294967296") (by decide)) (by decide)

end Evse.Net
