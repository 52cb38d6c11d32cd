import KeyCompute.Pricing.PricingModel
import KeyCompute.Tips.Tip

/-!
# Quoted and billed costs

`calculate_cost` of the pricing service multiplies a token count by a price and divides by 1000,
`calculate_breakdown` of the billing divides first.  `rust_decimal` is exact while a result fits its
mantissa and scale (`DecimalOps`), and every intermediate result of a storable line item does, so
the two agree on the rounded line items and on their sum.
-/

namespace KeyCompute.Pricing

/-- The numbers a `rust_decimal::Decimal` can hold. -/
def Fits (q : ℚ) : Prop := ∃ (mantissa : ℤ) (scale : ℕ), |mantissa| < 2 ^ 96 ∧ scale ≤ 28 ∧
  q = mantissa / 10 ^ scale

/-- The arithmetic of `rust_decimal`, exact wherever the exact result fits. -/
structure DecimalOps where
  add : ℚ → ℚ → ℚ
  mul : ℚ → ℚ → ℚ
  div : ℚ → ℚ → ℚ
  add_exact {a b : ℚ} : Fits (a + b) → add a b = a + b
  mul_exact {a b : ℚ} : Fits (a * b) → mul a b = a * b
  div_exact {a : ℚ} : Fits (a / 1000) → div a 1000 = a / 1000

/-- `round_dp(10)`. -/
def roundDp10 (q : ℚ) : ℚ := roundHalfEven (q * 10 ^ 10) / 10 ^ 10

/-- A column of type `DECIMAL(20, 10)` as a number. -/
def decimal (units : ℤ) : ℚ := units / 10 ^ 10

namespace DecimalOps

variable (ops : DecimalOps)

def calculateCost (inputTokens outputTokens : UInt32) (pricing : PricingSnapshot) : ℚ :=
  let inputCost := roundDp10
    (ops.div (ops.mul inputTokens.toNat (decimal pricing.inputPricePer1k)) 1000)
  let outputCost := roundDp10
    (ops.div (ops.mul outputTokens.toNat (decimal pricing.outputPricePer1k)) 1000)
  ops.add inputCost outputCost

/-- `calculate_breakdown`, with `calculate_breakdown_from_prices`. -/
def calculateBreakdown (inputTokens outputTokens : UInt32) (pricing : PricingSnapshot) :
    ℚ × ℚ × ℚ :=
  let inputCost := roundDp10
    (ops.mul (ops.div inputTokens.toNat 1000) (decimal pricing.inputPricePer1k))
  let outputCost := roundDp10
    (ops.mul (ops.div outputTokens.toNat 1000) (decimal pricing.outputPricePer1k))
  (inputCost, outputCost, ops.add inputCost outputCost)

end DecimalOps

/-! ## Rounding -/

theorem le_roundHalfEven (q : ℚ) : ⌊q⌋ ≤ roundHalfEven q := by
  unfold roundHalfEven
  split_ifs <;> omega

theorem roundHalfEven_le (q : ℚ) : roundHalfEven q ≤ ⌊q⌋ + 1 := by
  unfold roundHalfEven
  split_ifs <;> omega

theorem roundHalfEven_mono {q r : ℚ} (h : q ≤ r) : roundHalfEven q ≤ roundHalfEven r := by
  rcases (Int.floor_le_floor h).lt_or_eq with floors | floors
  · calc roundHalfEven q ≤ ⌊q⌋ + 1 := roundHalfEven_le q
      _ ≤ ⌊r⌋ := floors
      _ ≤ roundHalfEven r := le_roundHalfEven r
  · -- between the same two integers only the distance to the lower one decides
    unfold roundHalfEven
    rw [floors]
    split_ifs <;> first | omega | (exfalso; linarith)

theorem roundDp10_mono {q r : ℚ} (h : q ≤ r) : roundDp10 q ≤ roundDp10 r := by
  unfold roundDp10
  have scaled : q * 10 ^ 10 ≤ r * 10 ^ 10 := by linarith
  have rounded : (roundHalfEven (q * 10 ^ 10) : ℚ) ≤ roundHalfEven (r * 10 ^ 10) :=
    mod_cast roundHalfEven_mono scaled
  exact div_le_div_of_nonneg_right rounded (by norm_num)

/-! ## Line items -/

/-- What `tokens` at a price per thousand cost, to ten decimals. -/
def lineItem (tokens : UInt32) (price : ℤ) : ℚ := roundDp10 (tokens.toNat * decimal price / 1000)

/-- A price of the schema, and a token count whose line item can be stored. -/
structure StorableLine (tokens : UInt32) (price : ℤ) : Prop where
  price_nonneg : 0 ≤ price
  price_lt : price < 10 ^ 20
  item_lt : lineItem tokens price < 10 ^ 10

theorem lineItem_mono {tokens tokens' : UInt32} {price price' : ℤ} (nonneg : 0 ≤ price)
    (more : tokens ≤ tokens') (dearer : price ≤ price') :
    lineItem tokens price ≤ lineItem tokens' price' := by
  have tokens_le : (tokens.toNat : ℚ) ≤ tokens'.toNat := mod_cast UInt32.le_iff_toNat_le.1 more
  have price_le : decimal price ≤ decimal price' :=
    div_le_div_of_nonneg_right (mod_cast dearer) (by norm_num)
  have price_nonneg : 0 ≤ decimal price := by unfold decimal; positivity
  exact roundDp10_mono (by gcongr)

namespace StorableLine

variable {ops : DecimalOps} {tokens : UInt32} {price : ℤ}

theorem fits_of_units {units : ℤ} {scale : ℕ} (nonneg : 0 ≤ units) (lt : units < 2 ^ 96)
    (decimals : scale ≤ 28) : Fits (units / 10 ^ scale) :=
  ⟨units, scale, by rwa [abs_of_nonneg nonneg], decimals, rfl⟩

theorem units (h : StorableLine tokens price) : ∃ n : ℤ, lineItem tokens price = n / 10 ^ 10 ∧
    0 ≤ n ∧ n < 10 ^ 20 ∧ tokens.toNat * price ≤ 1000 * n + 1000 := by
  have eq : lineItem tokens price =
      roundHalfEven ((tokens.toNat * price : ℤ) / (1000 : ℕ)) / 10 ^ 10 := by
    rw [lineItem, roundDp10, decimal]
    congr 3
    push_cast
    ring
  have floor := le_roundHalfEven ((tokens.toNat * price : ℤ) / (1000 : ℕ))
  rw [Rat.floor_intCast_div_natCast] at floor
  have product_nonneg := mul_nonneg (Int.natCast_nonneg tokens.toNat) h.price_nonneg
  have item := h.item_lt
  rw [eq, div_lt_iff₀ (by norm_num), ← pow_add] at item
  exact ⟨_, eq, by omega, by exact_mod_cast item, by omega⟩

/-- The exact product has fewer than 96 bits, at any scale. -/
theorem fits (h : StorableLine tokens price) {scale : ℕ} (decimals : scale ≤ 28) :
    Fits (((tokens.toNat * price : ℤ) : ℚ) / 10 ^ scale) := by
  obtain ⟨n, -, -, lt, le⟩ := h.units
  exact fits_of_units (mul_nonneg (Int.natCast_nonneg _) h.price_nonneg) (by omega) decimals

theorem quoted_eq (h : StorableLine tokens price) :
    ops.div (ops.mul tokens.toNat (decimal price)) 1000 = tokens.toNat * decimal price / 1000 := by
  have product : ((tokens.toNat * price : ℤ) : ℚ) / 10 ^ 10 = tokens.toNat * decimal price := by
    rw [decimal, ← mul_div_assoc]
    push_cast
    rfl
  have quotient : ((tokens.toNat * price : ℤ) : ℚ) / 10 ^ 13 =
      tokens.toNat * decimal price / 1000 := by
    rw [← product]
    ring
  rw [ops.mul_exact (product ▸ h.fits (by norm_num)),
    ops.div_exact (quotient ▸ h.fits (by norm_num))]

theorem billed_eq (h : StorableLine tokens price) :
    ops.mul (ops.div tokens.toNat 1000) (decimal price) = tokens.toNat * decimal price / 1000 := by
  have thousands : Fits ((tokens.toNat : ℤ) / 10 ^ 3) :=
    fits_of_units (Int.natCast_nonneg _) (by have := tokens.toNat_lt; omega) (by norm_num)
  have product : ((tokens.toNat * price : ℤ) : ℚ) / 10 ^ 13 =
      tokens.toNat / 1000 * decimal price := by
    rw [decimal]
    push_cast
    ring
  rw [ops.div_exact (by norm_num at thousands; exact thousands),
    ops.mul_exact (product ▸ h.fits (by norm_num))]
  ring

theorem add_eq {tokens' : UInt32} {price' : ℤ} (h : StorableLine tokens price)
    (h' : StorableLine tokens' price') :
    ops.add (lineItem tokens price) (lineItem tokens' price') =
      lineItem tokens price + lineItem tokens' price' := by
  obtain ⟨n, eq, nonneg, lt, -⟩ := h.units
  obtain ⟨n', eq', nonneg', lt', -⟩ := h'.units
  refine ops.add_exact ?_
  rw [eq, eq', ← add_div, ← Int.cast_add]
  exact fits_of_units (by omega) (by omega) (by norm_num)

end StorableLine

/-- Both lines of a charge are storable. -/
structure Storable (input output : UInt32) (pricing : PricingSnapshot) : Prop where
  input : StorableLine input pricing.inputPricePer1k
  output : StorableLine output pricing.outputPricePer1k

/-- The line items of a charge, and their sum. -/
def itemized (input output : UInt32) (pricing : PricingSnapshot) : ℚ × ℚ × ℚ :=
  (lineItem input pricing.inputPricePer1k, lineItem output pricing.outputPricePer1k,
    lineItem input pricing.inputPricePer1k + lineItem output pricing.outputPricePer1k)

theorem calculateCost_eq {ops : DecimalOps} {input output : UInt32} {pricing : PricingSnapshot}
    (h : Storable input output pricing) :
    ops.calculateCost input output pricing = (itemized input output pricing).2.2 := by
  simp only [DecimalOps.calculateCost, h.input.quoted_eq, h.output.quoted_eq]
  exact h.input.add_eq h.output

/-- **Quoted and billed costs agree.**  With storable line items both functions return the sum of
the line items, each rounded half to even, and more tokens or a higher price never cost less. -/
theorem costs_agree (ops : DecimalOps) (input output : UInt32) (pricing : PricingSnapshot)
    (storable : Storable input output pricing) :
    ops.calculateBreakdown input output pricing = itemized input output pricing ∧
    ops.calculateCost input output pricing = (ops.calculateBreakdown input output pricing).2.2 ∧
    ∀ (input' output' : UInt32) (pricing' : PricingSnapshot), Storable input' output' pricing' →
      input ≤ input' → output ≤ output' → pricing.inputPricePer1k ≤ pricing'.inputPricePer1k →
      pricing.outputPricePer1k ≤ pricing'.outputPricePer1k →
      ops.calculateCost input output pricing ≤ ops.calculateCost input' output' pricing' := by
  have breakdown : ops.calculateBreakdown input output pricing = itemized input output pricing := by
    simp only [DecimalOps.calculateBreakdown, storable.input.billed_eq, storable.output.billed_eq]
    exact congrArg (fun total => (_, _, total)) (storable.input.add_eq storable.output)
  refine ⟨breakdown, by rw [calculateCost_eq storable, breakdown], ?_⟩
  intro input' output' pricing' storable' input_le output_le input_price_le output_price_le
  rw [calculateCost_eq storable, calculateCost_eq storable']
  exact add_le_add (lineItem_mono storable.input.price_nonneg input_le input_price_le)
    (lineItem_mono storable.output.price_nonneg output_le output_price_le)

/-- The exact operations. -/
def exactOps : DecimalOps :=
  ⟨(· + ·), (· * ·), (· / ·), fun _ => rfl, fun _ => rfl, fun _ => rfl⟩

theorem costs_agree_exact : exactOps.calculateCost 1500 200 ⟨"m", "CNY", 12345, 1⟩ =
    (exactOps.calculateBreakdown 1500 200 ⟨"m", "CNY", 12345, 1⟩).2.2 :=
  (costs_agree exactOps 1500 200 ⟨"m", "CNY", 12345, 1⟩
    ⟨⟨by decide, by decide, by decide +kernel⟩, ⟨by decide, by decide, by decide +kernel⟩⟩).2.1

end KeyCompute.Pricing
