import CosmosPay.Figures

/-!
# What is added together

The overview and the balances collect intents by their asset label, which is the code
without the issuer.  Codes that the create endpoints store have labels of their own, so an
entry mixes assets where two issuers have issued the same code.
-/

namespace CosmosPay

open Awaiting Program Tables Analytics
open Text (Numbers toLowerCase)

/-- The asset on the chain: native, or a code and its issuer. -/
def PaymentIntent.chainAsset (intent : PaymentIntent) : Asset :=
  match intent.assetIssuer with
  | none => .native
  | some issuer => .issued intent.asset issuer

/-- The intents that an entry of the balances is a sum of. -/
def contributors (intents : List PaymentIntent) (label : String) : List PaymentIntent :=
  settledOf intents label ++ awaitedOf intents label

/-- The intents ask for one asset. -/
def OneAsset (intents : List PaymentIntent) : Prop :=
  ∀ first ∈ intents, ∀ second ∈ intents, first.chainAsset = second.chainAsset

/-- Every amount that the overview and the balances report is the sum over intents of one
asset, and no two assets contribute to one entry. -/
structure AssetsApart (numbers : Numbers) (intents : List PaymentIntent) : Prop where
  volume : ∀ entry ∈ volume numbers intents,
    entry.amount = money numbers (sumOf numbers (settledOf intents entry.asset)) ∧
      OneAsset (settledOf intents entry.asset)
  balances : ∀ balance ∈ balanceData numbers intents,
    balance.amount = money numbers (sumOf numbers (settledOf intents balance.asset)) ∧
      balance.pending = money numbers (sumOf numbers (awaitedOf intents balance.asset)) ∧
      OneAsset (contributors intents balance.asset)

/-- An intent that is paid, or awaits its payment. -/
def PaymentIntent.Counts (intent : PaymentIntent) : Prop :=
  intent.status = .succeeded ∨ intent.status = .pending ∨ intent.status = .submitted

section Labels

variable {code other : String} {issuer otherIssuer : Option String}

/-- Codes that are stored have labels of their own. -/
theorem code_eq_of_label (sound : SoundAsset code issuer)
    (otherSound : SoundAsset other otherIssuer)
    (same : assetLabel code = assetLabel other) : code = other := by
  have label : ∀ {code : String} {issuer : Option String}, SoundAsset code issuer →
      code ≠ "native" → assetLabel code = code ∧ code ≠ "XLM" := by
    intro code issuer sound issued
    refine ⟨if_neg (not_or.mpr ⟨sound.nonempty, issued⟩), ?_⟩
    rintro rfl
    exact sound.issued issued (by decide)
  by_cases native : code = "native"
  · subst native
    by_contra issued
    obtain ⟨isLabel, differ⟩ := label otherSound (Ne.symm issued)
    rw [isLabel] at same
    exact differ same.symm
  · obtain ⟨isLabel, differ⟩ := label sound native
    by_cases otherNative : other = "native"
    · subst otherNative
      rw [isLabel] at same
      exact absurd same differ
    · rw [isLabel, (label otherSound otherNative).1] at same
      exact same

end Labels

section Apart

variable {numbers : Numbers} {intents : List PaymentIntent} {intent : PaymentIntent}

theorem mem_contributors {label : String} : intent ∈ contributors intents label ↔
    intent ∈ intents ∧ intent.Counts ∧ assetLabel intent.asset = label := by
  simp only [contributors, settledOf, awaitedOf, List.mem_append, List.mem_filter,
    decide_eq_true_eq, PaymentIntent.Counts]
  tauto

theorem settledOf_subset {label : String} : settledOf intents label ⊆ contributors intents label :=
  List.subset_append_left _ _

theorem issuer_eq_of_chainAsset {first second : PaymentIntent}
    (same : first.chainAsset = second.chainAsset) : first.assetIssuer = second.assetIssuer := by
  unfold PaymentIntent.chainAsset at same
  split at same
  · rename_i isNone
    split at same
    · rename_i otherNone
      rw [isNone, otherNone]
    · cases same
  · rename_i issuer isIssuer
    split at same
    · cases same
    · rename_i other isOther
      obtain ⟨-, rfl⟩ := Asset.issued.inj same
      rw [isIssuer, isOther]

/-- The figures keep the assets of stored intents apart if and only if no code is counted for
two issuers. -/
theorem assets_apart_iff (sound : ∀ intent ∈ intents, SoundAsset intent.asset intent.assetIssuer) :
    AssetsApart numbers intents ↔
      ∀ first ∈ intents, ∀ second ∈ intents, first.Counts → second.Counts →
        first.asset = second.asset → first.assetIssuer = second.assetIssuer := by
  constructor
  · intro apart first isFirst second isSecond counts counts' sameCode
    obtain ⟨balance, member, isLabel⟩ := exists_balance isFirst
    obtain ⟨-, -, one⟩ := apart.balances balance member
    refine issuer_eq_of_chainAsset (one first ?_ second ?_)
    · exact mem_contributors.mpr ⟨isFirst, counts, isLabel.symm⟩
    · exact mem_contributors.mpr ⟨isSecond, counts', by rw [isLabel, sameCode]⟩
  · intro sameIssuer
    have one : ∀ label, OneAsset (contributors intents label) := by
      intro label first isFirst second isSecond
      obtain ⟨stored, counts, isLabel⟩ := mem_contributors.mp isFirst
      obtain ⟨stored', counts', isLabel'⟩ := mem_contributors.mp isSecond
      have sameCode := code_eq_of_label (sound first stored) (sound second stored')
        (isLabel.trans isLabel'.symm)
      have same := sameIssuer first stored second stored' counts counts' sameCode
      unfold PaymentIntent.chainAsset
      rw [same, sameCode]
    refine ⟨fun entry member => ?_, fun balance member => ?_⟩
    · refine ⟨(mem_volume.mp member).2.1, fun first isFirst second isSecond => ?_⟩
      exact one entry.asset first (settledOf_subset isFirst) second (settledOf_subset isSecond)
    · obtain ⟨-, isAmount, isPending, -⟩ := mem_balanceData.mp member
      exact ⟨isAmount, isPending, one balance.asset⟩

end Apart

/-- A payment of 25.5 in a code of the issuer. -/
def Sample.issuedBy (issuer : String) : PaymentIntent :=
  { Sample.intent with asset := "USDC", assetIssuer := some issuer, status := .succeeded }

theorem soundAsset_issuedBy (issuer : String) :
    SoundAsset (Sample.issuedBy issuer).asset (Sample.issuedBy issuer).assetIssuer := by
  have lower : toLowerCase "USDC" ∉ ["xlm", "native"] := by decide
  exact ⟨by simp [Sample.issuedBy], fun _ => lower, by simp [Sample.issuedBy]⟩

theorem assets_apart_iff_of_issuer :
    AssetsApart .exact [Sample.issuedBy Sample.payer, Sample.intent] := by
  refine (assets_apart_iff ?_).mpr ?_
  · intro intent member
    simp only [List.mem_cons, List.not_mem_nil, or_false] at member
    rcases member with rfl | rfl
    · exact soundAsset_issuedBy Sample.payer
    · exact soundAsset_native
  · intro first isFirst second isSecond _ _ sameCode
    simp only [List.mem_cons, List.not_mem_nil, or_false] at isFirst isSecond
    rcases isFirst with rfl | rfl <;> rcases isSecond with rfl | rfl
    · rfl
    · exact absurd sameCode (by decide)
    · exact absurd sameCode (by decide)
    · rfl

/-- Two issuers have each issued a USDC, and the overview reports 51 USDC. -/
theorem not_assets_apart :
    ¬ ∀ (numbers : Numbers) (intents : List PaymentIntent),
      (∀ intent ∈ intents, SoundAsset intent.asset intent.assetIssuer) →
      AssetsApart numbers intents := by
  intro apart
  have shown : (⟨"USDC", "51", 2⟩ : AssetVolume) ∈ volume .exact
      [Sample.issuedBy Sample.payer, Sample.issuedBy Sample.destination] := by
    decide +kernel
  have sound : ∀ intent ∈ [Sample.issuedBy Sample.payer, Sample.issuedBy Sample.destination],
      SoundAsset intent.asset intent.assetIssuer := by
    intro intent member
    simp only [List.mem_cons, List.not_mem_nil, or_false] at member
    rcases member with rfl | rfl
    · exact soundAsset_issuedBy Sample.payer
    · exact soundAsset_issuedBy Sample.destination
  obtain ⟨-, one⟩ := (apart .exact _ sound).volume _ shown
  have same := one (Sample.issuedBy Sample.payer) (by decide +kernel)
    (Sample.issuedBy Sample.destination) (by decide +kernel)
  have differ : (Sample.issuedBy Sample.payer).chainAsset ≠
      (Sample.issuedBy Sample.destination).chainAsset := by
    decide
  exact differ same

end CosmosPay
