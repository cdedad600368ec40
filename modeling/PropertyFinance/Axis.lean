import PropertyFinance.Deal
import PropertyFinance.Text.Blank

/-! The assumptions that can be swept. An offset is added to the value in percentage points, or
moves it by a percentage of itself. -/

namespace PropertyFinance
set_option autoImplicit false

inductive OffsetMode
  | absolute
  | relative
deriving DecidableEq

inductive Axis
  | exitCapRate
  | rentGrowth
  | purchasePrice
  | rentPerSf
  | vacancy
  | ltv
  | interestRate
  | buildableSf
deriving DecidableEq

/-- A name as it is compared: without surrounding blanks, in small letters, `_` for `-`. -/
def lookupKey (text : String) : String :=
  String.ofList ((Blank.trimChars text.toList).map fun c => if c = '-' then '_' else c.toLower)

namespace Axis

def all : List Axis :=
  [exitCapRate, rentGrowth, purchasePrice, rentPerSf, vacancy, ltv, interestRate, buildableSf]

def name : Axis → String
  | exitCapRate => "exit_cap_rate"
  | rentGrowth => "rent_growth"
  | purchasePrice => "purchase_price"
  | rentPerSf => "rent_per_sf"
  | vacancy => "vacancy"
  | ltv => "ltv"
  | interestRate => "interest_rate"
  | buildableSf => "buildable_sf"

def label : Axis → String
  | exitCapRate => "Exit Cap Rate"
  | rentGrowth => "Rent Growth"
  | purchasePrice => "Purchase Price"
  | rentPerSf => "Rent / SF"
  | vacancy => "Vacancy"
  | ltv => "LTV"
  | interestRate => "Interest Rate"
  | buildableSf => "Buildable SF"

def offsetMode : Axis → OffsetMode
  | purchasePrice | rentPerSf | buildableSf => .relative
  | _ => .absolute

def pointOffsets : List Decimal :=
  [.ofScaled (-15) 1, .ofScaled (-1) 0, .ofScaled (-5) 1, .zero, .ofScaled 5 1, .one,
    .ofScaled 15 1]

def vacancyOffsets : List Decimal :=
  [.ofScaled (-3) 0, .ofScaled (-2) 0, .ofScaled (-1) 0, .zero, .one, .two, .ofScaled 3 0]

def wideOffsets : List Decimal :=
  [.ofScaled (-15) 0, .ofScaled (-10) 0, .ofScaled (-5) 0, .zero, .ofScaled 5 0, .ofScaled 10 0,
    .ofScaled 15 0]

/-- The offsets swept unless others are asked for. -/
def offsets : Axis → List Decimal
  | exitCapRate | rentGrowth | interestRate => pointOffsets
  | vacancy => vacancyOffsets
  | ltv | purchasePrice | rentPerSf | buildableSf => wideOffsets

def baseValue (axis : Axis) (deal : Deal) : Decimal :=
  match axis with
  | exitCapRate => deal.exit.exitCapRatePct
  | rentGrowth => deal.income.rentGrowthPct
  | purchasePrice => deal.acquisition.purchasePrice
  | rentPerSf => deal.income.rentPerSf
  | vacancy => deal.income.vacancyPct
  | ltv => deal.financing.ltvPct
  | interestRate => deal.financing.interestRatePct
  | buildableSf => deal.buildableSf

/-- The deal with this one value replaced. -/
def set (axis : Axis) (deal : Deal) (value : Decimal) : Deal :=
  match axis with
  | exitCapRate => { deal with exit := { deal.exit with exitCapRatePct := value } }
  | rentGrowth => { deal with income := { deal.income with rentGrowthPct := value } }
  | purchasePrice => { deal with acquisition := { deal.acquisition with purchasePrice := value } }
  | rentPerSf => { deal with income := { deal.income with rentPerSf := value } }
  | vacancy => { deal with income := { deal.income with vacancyPct := value } }
  | ltv => { deal with financing := { deal.financing with ltvPct := value } }
  | interestRate => { deal with financing := { deal.financing with interestRatePct := value } }
  | buildableSf => { deal with buildableSf := value }

def offsetValue (axis : Axis) (deal : Deal) (offset : Decimal) : Arith Decimal :=
  match axis.offsetMode with
  | .absolute => (axis.baseValue deal).add offset
  | .relative => do (axis.baseValue deal).mul (← Decimal.one.add (← percentToRate offset))

/-- A zero offset leaves the deal as it is. -/
def shift (axis : Axis) (deal : Deal) (offset : Decimal) : Arith Deal := do
  if offset.isZero then pure deal
  else pure (axis.set deal (← axis.offsetValue deal offset))

def formatValue (axis : Axis) (value : Decimal) : String :=
  match axis with
  | purchasePrice => "$" ++ value.roundWhole.toText
  | rentPerSf => "$" ++ value.toFixed 2 ++ "/SF"
  | buildableSf => value.roundWhole.toText ++ " SF"
  | _ => value.toFixed 2 ++ "%"

def ofName? (text : String) : Option Axis :=
  all.find? fun axis => axis.name == lookupKey text

def ofText (text : String) : Outcome Axis :=
  match ofName? text with
  | some axis => pure axis
  | none => rejectField "axis" ("Unknown sensitivity axis '" ++ text ++ "'")

@[simp] theorem baseValue_set (axis : Axis) (deal : Deal) (value : Decimal) :
    axis.baseValue (axis.set deal value) = value := by
  cases axis <;> rfl

theorem baseValue_set_of_ne {a b : Axis} (h : a ≠ b) (deal : Deal) (value : Decimal) :
    a.baseValue (b.set deal value) = a.baseValue deal := by
  cases a <;> cases b <;> simp_all [set, baseValue]

theorem set_comm {a b : Axis} (h : a ≠ b) (deal : Deal) (v w : Decimal) :
    a.set (b.set deal w) v = b.set (a.set deal v) w := by
  cases a <;> cases b <;> simp_all [set]

end Axis

end PropertyFinance
