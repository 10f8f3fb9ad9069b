import Marble.Legend
import Mathlib.Tactic.Common

/-! Lower case folds characters: nothing in lower case has another lower case, and only a token has
a token for its lower case, itself. Both are read off the table, run against run. -/
namespace Marble.Text

namespace CaseRun

variable {r q : CaseRun} {code : Nat}

/-- The last of the characters a run leads to. -/
def targetLast (r : CaseRun) : Nat := r.target + (r.last - r.first)

/-- The lower case of one run lies outside of another: beside it, or in its gaps. -/
def leavesOut (r q : CaseRun) : Bool :=
  Nat.blt r.targetLast q.first || Nat.blt q.last r.target ||
    ((r.step % 2 == 0 || r.first == r.last) && q.step % 2 == 0 && (r.target + q.first) % 2 == 1)

/-- The lower case of a run consists of characters, none of which is a token. -/
def leadsToKeys (r : CaseRun) : Bool :=
  0x2d < r.target && (r.targetLast < 0x7c || 0x7c < r.target) &&
    (r.targetLast < 0xd800 || (0xdfff < r.target && r.targetLast < 0x110000))

theorem covers_iff : r.covers code = true ↔
    r.first ≤ code ∧ code ≤ r.last ∧ (code - r.first) % r.step = 0 := by
  simp [covers, and_assoc]

theorem lower_le (h : r.covers code = true) :
    r.target ≤ r.lower code ∧ r.lower code ≤ r.targetLast := by
  obtain ⟨hfirst, hlast, -⟩ := covers_iff.mp h
  simp only [lower, targetLast]
  omega

theorem mod_two_of_step {n step : Nat} (heven : step % 2 = 0) (h : n % step = 0) : n % 2 = 0 :=
  Nat.mod_eq_zero_of_dvd
    (Nat.dvd_trans (Nat.dvd_of_mod_eq_zero heven) (Nat.dvd_of_mod_eq_zero h))

theorem not_covers_lower (h : r.leavesOut q = true) (hr : r.covers code = true) :
    q.covers (r.lower code) = false := by
  obtain ⟨htarget, hlast⟩ := lower_le hr
  obtain ⟨hfirst, hend, hstep⟩ := covers_iff.mp hr
  by_contra hcovers
  obtain ⟨hqfirst, hqlast, hqstep⟩ := covers_iff.mp (eq_true_of_ne_false hcovers)
  simp only [leavesOut, Bool.or_eq_true, Bool.and_eq_true, Nat.blt_eq, beq_iff_eq] at h
  rcases h with (hbefore | hbehind) | ⟨⟨heven, hqeven⟩, hodd⟩
  · omega
  · omega
  · -- both runs keep their parity, and these differ
    have htwo : (code - r.first) % 2 = 0 := by
      rcases heven with heven | hsingle
      · exact mod_two_of_step heven hstep
      · have : code = r.first := Nat.le_antisymm (hsingle ▸ hend) hfirst
        omega
    have hqtwo := mod_two_of_step hqeven hqstep
    simp only [lower] at hqtwo hqfirst
    omega

theorem leavesOut_of_mem (hr : r ∈ all) (hq : q ∈ all) : r.leavesOut q = true := by
  have htable : (all.all fun r => all.all fun q => r.leavesOut q) = true := by decide +kernel
  exact List.all_eq_true.mp (List.all_eq_true.mp htable r hr) q hq

theorem leadsToKeys_of_mem (hr : r ∈ all) : r.leadsToKeys = true := by
  have htable : all.all leadsToKeys = true := by decide +kernel
  exact List.all_eq_true.mp htable r hr

/-- What a run leads to is a character. -/
theorem toNat_lower (hr : r ∈ all) (hcode : r.covers code = true) :
    (Char.ofNat (r.lower code)).toNat = r.lower code := by
  obtain ⟨htarget, hlast⟩ := lower_le hcode
  have hkeys := leadsToKeys_of_mem hr
  simp only [leadsToKeys, Bool.or_eq_true, Bool.and_eq_true, decide_eq_true_eq] at hkeys
  have hvalid : (r.lower code).isValidChar := by
    rcases hkeys.2 with hlow | ⟨hhigh, hend⟩
    · exact Or.inl (by omega)
    · exact Or.inr ⟨by omega, by omega⟩
  rw [Char.ofNat, dif_pos hvalid]
  rfl

end CaseRun

variable {c d : Char}

/-- A character is its own lower case unless one of the runs covers it. -/
theorem lowerCase_cases (c : Char) : lowerCase c = c ∨
    ∃ r ∈ CaseRun.all, r.covers c.toNat = true ∧ (lowerCase c).toNat = r.lower c.toNat := by
  rw [lowerCase]
  cases hfind : CaseRun.all.find? (·.covers c.toNat) with
  | none => exact Or.inl rfl
  | some r =>
    have hr := List.mem_of_find?_eq_some hfind
    have hcovers : r.covers c.toNat = true :=
      List.find?_some (p := fun run : CaseRun => run.covers c.toNat) hfind
    exact Or.inr ⟨r, hr, hcovers, CaseRun.toNat_lower hr hcovers⟩

theorem lowerCase_eq_self (h : ∀ r ∈ CaseRun.all, r.covers c.toNat = false) : lowerCase c = c := by
  have hnone : CaseRun.all.find? (·.covers c.toNat) = none := by
    apply List.find?_eq_none.mpr
    intro r hr
    simp [h r hr]
  rw [lowerCase, hnone]

@[simp] theorem lowerCase_lowerCase (c : Char) : lowerCase (lowerCase c) = lowerCase c := by
  rcases lowerCase_cases c with hself | ⟨r, hr, hcovers, hlower⟩
  · rw [hself, hself]
  · apply lowerCase_eq_self
    intro q hq
    rw [hlower]
    exact CaseRun.not_covers_lower (CaseRun.leavesOut_of_mem hr hq) hcovers

theorem lowerCase_of_mem_reserved (h : c ∈ Token.reserved) : lowerCase c = c := by
  have htokens : (Token.reserved.all fun c => lowerCase c == c) = true := by decide
  exact beq_iff_eq.mp (List.all_eq_true.mp htokens c h)

theorem lowerCase_mem_reserved : lowerCase c ∈ Token.reserved ↔ c ∈ Token.reserved := by
  constructor
  · intro h
    rcases lowerCase_cases c with hself | ⟨r, hr, hcovers, hlower⟩
    · rwa [hself] at h
    · obtain ⟨htarget, hlast⟩ := CaseRun.lower_le hcovers
      have hkeys := CaseRun.leadsToKeys_of_mem hr
      simp only [CaseRun.leadsToKeys, Bool.or_eq_true, Bool.and_eq_true, decide_eq_true_eq] at hkeys
      have htokens :
          (Token.reserved.all fun d => d.toNat ≤ 0x2d || d.toNat == 0x7c) = true := by decide
      have htoken := List.all_eq_true.mp htokens _ h
      simp only [Bool.or_eq_true, decide_eq_true_eq, beq_iff_eq] at htoken
      omega
  · intro h
    rwa [lowerCase_of_mem_reserved h]

end Marble.Text
