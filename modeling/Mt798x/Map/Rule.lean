import Mathlib

/-!
# MAP rules

The numeric part of a `mapcalc` rule: the options of one rule in the order in which they are
given, the defaults, and the validation that decides whether the rule is printed or skipped
(`main` of `mapcalc.c`).  A number of an option is what `strtoul` returned, converted to `int`, so
it may be negative; `errno` says that the conversion reported an error.
-/

namespace Map

/-! ## Options -/

/-- The options that set a number. -/
inductive NumOpt
  | ealen | prefix4len | prefix6len | offset | psidlen | pdlen | psid
  deriving DecidableEq, Repr

/-- The largest value `main` accepts for an option. -/
def NumOpt.limit : NumOpt → ℤ
  | .ealen => 48
  | .prefix4len => 32
  | .prefix6len => 128
  | .offset => 16
  | .psidlen => 16
  | .pdlen => 128
  | .psid => 65535

/-- An option of a rule. -/
inductive SubOpt
  | type (isLw4o6 : Bool)
  | fmr
  | num (o : NumOpt) (intval : ℤ) (errno : Bool)
  deriving DecidableEq, Repr

/-- The variables of `main` that the options set. -/
structure RuleVars where
  lw4o6 : Bool := false
  fmr : Bool := false
  ealen : ℤ := -1
  prefix4len : ℤ := 32
  prefix6len : ℤ := -1
  pdlen : ℤ := -1
  offset : ℤ := -1
  psidlen : ℤ := -1
  psid : ℤ := -1
  deriving DecidableEq, Repr

/-- Stores a number. -/
def RuleVars.setNum (v : RuleVars) (o : NumOpt) (intval : ℤ) : RuleVars :=
  match o with
  | .ealen => { v with ealen := intval }
  | .prefix4len => { v with prefix4len := intval }
  | .prefix6len => { v with prefix6len := intval }
  | .offset => { v with offset := intval }
  | .psidlen => { v with psidlen := intval }
  | .pdlen => { v with pdlen := intval }
  | .psid => { v with psid := intval }

/-- One turn of the option loop: an option with an invalid value is skipped. -/
def parseOpt (v : RuleVars) : SubOpt → RuleVars
  | .type isLw4o6 => { v with lw4o6 := isLw4o6 }
  | .fmr => { v with fmr := true }
  | .num o intval errno => if intval ≤ o.limit ∧ errno = false then v.setNum o intval else v

/-- The variables after the option loop. -/
def parseOpts (opts : List SubOpt) : RuleVars := opts.foldl parseOpt {}

/-! ## Defaults and validation -/

/-- The environment of a rule: the `LEGACY` variable, the length of the delegated prefix found in
the interface dump (`-1` for none), and the 16 bits taken from the prefix as PSID. -/
structure RuleEnv where
  legacy : Bool
  foundPdlen : ℤ
  pdPsid : ℕ

/-- The default of the offset. -/
def defaultOffset (env : RuleEnv) (v : RuleVars) : RuleVars :=
  if v.offset < 0 then
    { v with offset := if v.lw4o6 then 0 else if env.legacy then 4 else 6 }
  else
    v

/-- LW4over6 has no EALEN and no PSID autodetection. -/
def lw4o6Lengths (v : RuleVars) : RuleVars :=
  if v.lw4o6 then
    let psidlen := if v.psidlen < 0 then 0 else v.psidlen
    { v with psidlen := psidlen, ealen := psidlen }
  else
    v

/-- The delegated prefix, if the options do not give one. -/
def findPd (env : RuleEnv) (v : RuleVars) : RuleVars :=
  if v.pdlen < 0 then { v with pdlen := env.foundPdlen } else v

/-- The lengths that follow from the other ones. -/
def deriveLengths (v : RuleVars) : RuleVars :=
  let v := if v.ealen < 0 ∧ 0 ≤ v.pdlen then { v with ealen := v.pdlen - v.prefix6len } else v
  if v.psidlen ≤ 0 then
    let psidlen := v.ealen - (32 - v.prefix4len)
    { v with psidlen := if psidlen < 0 then 0 else psidlen, psid := -1 }
  else
    v

/-- The variables of a rule between the option loop and the validation. -/
def fillRule (env : RuleEnv) (v : RuleVars) : RuleVars :=
  deriveLengths (findPd env (lw4o6Lengths (defaultOffset env v)))

/-- The validation of a rule: `none` for a rule that is skipped. -/
def validateRule (v : RuleVars) : Option RuleVars :=
  if v.prefix4len < 0 ∨ v.prefix6len < 0 ∨ v.ealen < 0 ∨ 16 < v.psidlen ∨ v.ealen < v.psidlen then
    none
  else
    some v

/-- The PSID left-justified to 16 bits, with the bits behind the first `psidlen` cleared. -/
def normalizePsid (psidlen : ℕ) (psid : ℤ) : ℤ :=
  if 0 < psidlen then (psid / 2 ^ (16 - psidlen)) * 2 ^ (16 - psidlen) else psid

/-- A rule from its options to the variables the output is printed from. -/
def evalRule (env : RuleEnv) (opts : List SubOpt) : Option RuleVars := do
  let v ← validateRule (fillRule env (parseOpts opts))
  let v := if v.psid < 0 ∧ 0 ≤ v.psidlen ∧ 0 ≤ v.pdlen then { v with psid := env.pdPsid } else v
  let v := { v with psid := normalizePsid v.psidlen.toNat v.psid }
  if v.pdlen < 0 ∧ v.fmr = false then none else some v

end Map
