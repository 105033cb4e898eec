import Mt798x.Base.Ipv4

/-!
# The program `ipcalc.sh`

From an address with a prefix or a netmask `ipcalc.sh` prints the network, and from a start and a
limit the range of a DHCP server. What is written to the standard output is modelled as the list of
its lines, a name with a value.
-/

namespace Ipv4

open Script

/-! ## The arguments -/

/-- The option in front: how addresses are printed. -/
inductive Format where
  | quad
  | decimal
  | hexadecimal
  deriving DecidableEq

/-- `_ip2str` -/
def Format.ip2str (format : Format) (n : ℤ) : Option (List Char) := do
  let n ← assert_uint32 (toString n).toList
  match format with
  | quad => Ipv4.ip2str n
  | decimal => return Nat.toDigits 10 n
  | hexadecimal => return Nat.toDigits 16 n

/-- An option is taken off the arguments. -/
def options : List (List Char) → Format × List (List Char)
  | ['-', 'd'] :: args => (.decimal, args)
  | ['-', 'x'] :: args => (.hexadecimal, args)
  | args => (.quad, args)

structure Net where
  ipaddr : ℕ
  netmask : ℕ
  bits : ℕ
  deriving DecidableEq

/-- `${a%/*}` -/
def beforeSlash (a : List Char) : List Char := ((a.reverse.dropWhile (· ≠ '/')).drop 1).reverse

/-- `${a#*/}` -/
def afterSlash (a : List Char) : List Char := (a.dropWhile (· ≠ '/')).drop 1

/-- The network that the first one or two arguments name, and the arguments behind. -/
def address : List (List Char) → Option (Net × List (List Char))
  | [] => none
  | a :: args =>
    if '/' ∈ a ∧ '.' ∈ afterSlash a then do
      let ipaddr ← str2ip (beforeSlash a)
      let netmask ← str2ip (afterSlash a)
      let bits ← netmask2prefix netmask
      return (⟨ipaddr, netmask, bits⟩, args)
    else if '/' ∈ a then do
      let ipaddr ← str2ip (beforeSlash a)
      let bits ← assert_uint32 (afterSlash a)
      if 32 < bits then none
      else
        let netmask ← prefix2netmask bits
        return (⟨ipaddr, netmask, bits⟩, args)
    else do
      let ipaddr ← str2ip a
      let netmask ← str2ip (args.headD [])
      let bits ← netmask2prefix netmask
      return (⟨ipaddr, netmask, bits⟩, args.tail)

/-! ## The network and the range -/

namespace Net

def hostmask (n : Net) : ℕ := n.netmask ^^^ 0xffffffff

def network (n : Net) : ℕ := n.ipaddr &&& n.netmask

def broadcast (n : Net) : ℕ := n.network ||| n.hostmask

def count (n : Net) : ℕ := n.hostmask + 1

def lower (n : Net) : ℕ := if n.bits ≤ 30 then n.network + 1 else n.network

def upper (n : Net) : ℤ :=
  if n.bits ≤ 30 then (n.network ||| n.hostmask : ℕ) - 1
  else if n.bits = 31 then (n.network ||| n.hostmask : ℕ)
  else n.network

/-- The address from which on the limit counts. -/
def base (n : Net) (start : ℕ) : ℕ := n.network ||| (start &&& n.hostmask)

/-- The variable `start` after its adjustments. -/
def start (n : Net) (start : ℕ) : ℤ :=
  let start : ℤ := n.base start
  let start := if start < n.lower then (n.lower : ℤ) else start
  if start = n.ipaddr then start + 1 else start

/-- The variable `end` after its adjustments. -/
def stop (n : Net) (start : ℤ) (range : ℕ) : ℤ :=
  let stop := start + range - 1
  let stop := if stop > n.upper then n.upper else stop
  if stop = n.ipaddr then stop - 1 else stop

end Net

/-! ## The program -/

/-- The lines on the standard output and the exit status. -/
structure Run where
  out : List (String × List Char)
  exit : ℕ
  deriving DecidableEq

namespace Run

/-- Some lines are printed first. -/
def echo (lines : List (String × List Char)) (r : Run) : Run := ⟨lines ++ r.out, r.exit⟩

/-- `… || exit 1` -/
def orExit {α : Type} (a : Option α) (next : α → Run) : Run := a.elim ⟨[], 1⟩ next

end Run

/-- The range, for the arguments behind the network. -/
def printRange (format : Format) (n : Net) : List (List Char) → Run
  | [start, range] =>
    if start ++ range = [] then ⟨[], 0⟩
    else
      .orExit (assert_uint32 start) fun start =>
      .orExit (assert_uint32 range) fun range =>
      if n.start start > n.stop (n.start start) range then ⟨[], 1⟩
      else
        .orExit (format.ip2str (n.start start)) fun START =>
        .orExit (format.ip2str (n.stop (n.start start) range)) fun END =>
        ⟨[("START", START), ("END", END)], 0⟩
  | _ => ⟨[], 0⟩

/-- The line of the broadcast address. -/
def printBroadcast (format : Format) (n : Net) : Option (List (String × List Char)) :=
  if n.bits ≤ 30 then (format.ip2str n.broadcast).map fun BROADCAST => [("BROADCAST", BROADCAST)]
  else some []

/-- `ipcalc.sh` -/
def ipcalc (args : List (List Char)) : Run :=
  let (format, args) := options args
  .orExit (address args) fun (n, rest) =>
  if rest.length ≠ 0 ∧ rest.length ≠ 2 then ⟨[], 1⟩
  else
    .orExit (format.ip2str n.ipaddr) fun IP =>
    .orExit (format.ip2str n.netmask) fun NETMASK =>
    .orExit (format.ip2str n.network) fun NETWORK =>
    .echo [("IP", IP), ("NETMASK", NETMASK)] <|
    .orExit (printBroadcast format n) fun broadcast =>
    .echo (broadcast ++ [("NETWORK", NETWORK), ("PREFIX", Nat.toDigits 10 n.bits),
      ("COUNT", Nat.toDigits 10 n.count)]) <|
    printRange format n rest

/-! ## Networks -/

/-- The number of the addresses of a network. -/
def Net.size (n : Net) : ℕ := 2 ^ (32 - n.bits)

/-- A host of the network: with up to 30 bits it is neither the first address nor the last one. -/
def Net.Usable (n : Net) (x : ℕ) : Prop :=
  x / n.size = n.ipaddr / n.size ∧ (n.bits ≤ 30 → x % n.size ≠ 0 ∧ x % n.size ≠ n.size - 1)

/-- What the arguments are checked for. -/
structure Net.WF (n : Net) : Prop where
  bits_le : n.bits ≤ 32
  netmask_eq : n.netmask = maskOf n.bits
  ipaddr_le : n.ipaddr ≤ uint_max

lemma str2ip_le {s : List Char} {v : ℕ} (h : str2ip s = some v) : v ≤ uint_max :=
  (ip2str_iff.mp (str2ip_iff_ip2str.mp h)).1

lemma address_wf {args rest : List (List Char)} {n : Net} (h : address args = some (n, rest)) :
    n.WF := by
  cases args with
  | nil => cases h
  | cons a args =>
    rw [address] at h
    split_ifs at h with hquad hprefix
    · simp only [Option.bind_eq_bind, Option.bind_eq_some_iff, Option.pure_def, Option.some.injEq,
        Prod.mk.injEq, netmask2prefix_iff] at h
      obtain ⟨ip, hip, m, -, p, ⟨hp, rfl⟩, rfl, rfl⟩ := h
      exact ⟨hp, rfl, str2ip_le hip⟩
    · simp only [Option.bind_eq_bind, Option.bind_eq_some_iff, Option.pure_def] at h
      obtain ⟨ip, hip, p, -, h⟩ := h
      split_ifs at h with hp
      simp only [Option.bind_eq_some_iff, prefix2netmask_iff, Option.some.injEq,
        Prod.mk.injEq] at h
      obtain ⟨m, ⟨hp, rfl⟩, rfl, rfl⟩ := h
      exact ⟨hp, rfl, str2ip_le hip⟩
    · simp only [Option.bind_eq_bind, Option.bind_eq_some_iff, Option.pure_def, Option.some.injEq,
        Prod.mk.injEq, netmask2prefix_iff] at h
      obtain ⟨ip, hip, m, -, p, ⟨hp, rfl⟩, rfl, rfl⟩ := h
      exact ⟨hp, rfl, str2ip_le hip⟩

lemma and_mask {x j k : ℕ} (h : x < 2 ^ (j + k)) :
    x &&& (2 ^ (j + k) - 2 ^ k) = 2 ^ k * (x / 2 ^ k) := by
  have hmask : 2 ^ (j + k) - 2 ^ k = (2 ^ j - 1) <<< k := by
    rw [Nat.shiftLeft_eq, Nat.sub_mul, one_mul, pow_add]
  have hx : x / 2 ^ k < 2 ^ j := Nat.div_lt_of_lt_mul (by rwa [← pow_add, Nat.add_comm])
  have hcut : x &&& (2 ^ j - 1) <<< k = (x >>> k &&& (2 ^ j - 1)) <<< k := by
    refine Nat.eq_of_testBit_eq fun i => ?_
    rw [Nat.testBit_and, Nat.testBit_shiftLeft, Nat.testBit_shiftLeft, Nat.testBit_and,
      Nat.testBit_shiftRight]
    by_cases hi : k ≤ i
    · rw [Nat.add_sub_cancel' hi]
      simp [hi]
    · simp [hi]
  rw [hmask, hcut, Nat.and_two_pow_sub_one_eq_mod, Nat.shiftRight_eq_div_pow,
    Nat.mod_eq_of_lt hx, Nat.shiftLeft_eq, Nat.mul_comm]

namespace Net.WF

variable {n : Net}

lemma hostmask_eq (h : n.WF) : n.hostmask = n.size - 1 := by
  have hall : ∀ p ≤ 32, maskOf p ^^^ 0xffffffff = 2 ^ (32 - p) - 1 := by decide +kernel
  rw [hostmask, h.netmask_eq, hall _ h.bits_le, size]

lemma size_pos (_ : n.WF) : 0 < n.size := Nat.two_pow_pos _

lemma network_eq (h : n.WF) : n.network = n.size * (n.ipaddr / n.size) := by
  have hip : n.ipaddr < 2 ^ (n.bits + (32 - n.bits)) := by
    rw [Nat.add_sub_cancel' h.bits_le]
    exact Nat.lt_succ_of_le h.ipaddr_le
  have := and_mask hip
  rw [Nat.add_sub_cancel' h.bits_le] at this
  rw [network, h.netmask_eq, maskOf, this, size]

lemma network_le (h : n.WF) : n.network ≤ n.ipaddr := by
  rw [h.network_eq]
  exact Nat.mul_div_le _ _

lemma or_host (h : n.WF) {x : ℕ} (hx : x < n.size) : n.network ||| x = n.network + x := by
  rw [h.network_eq]
  exact (Nat.two_pow_add_eq_or_of_lt hx _).symm

lemma broadcast_eq (h : n.WF) : n.network ||| n.hostmask = n.network + (n.size - 1) := by
  rw [h.hostmask_eq]
  exact h.or_host (Nat.sub_lt h.size_pos one_pos)

lemma count_eq (h : n.WF) : n.count = n.size := by
  rw [count, h.hostmask_eq]
  exact Nat.sub_add_cancel h.size_pos

/-- The usable hosts are the addresses between the two bounds. -/
lemma usable_iff (h : n.WF) (x : ℕ) : n.Usable x ↔ n.lower ≤ x ∧ (x : ℤ) ≤ n.upper := by
  have hsize := h.size_pos
  have hbits := h.bits_le
  have hblock : x / n.size = n.ipaddr / n.size ↔
      n.network ≤ x ∧ x ≤ n.network + (n.size - 1) := by
    rw [Nat.div_eq_iff hsize, h.network_eq, Nat.mul_comm, Nat.add_sub_assoc hsize]
  have hrest : n.network ≤ x → x ≤ n.network + (n.size - 1) → x % n.size = x - n.network := by
    intro hlo hhi
    have hdiv := hblock.mpr ⟨hlo, hhi⟩
    rw [h.network_eq, ← hdiv, Nat.mod_eq_sub_mul_div]
  have hone : n.bits = 32 → n.size = 1 := fun hb => by rw [size, hb]; rfl
  rw [Usable, hblock, lower, upper, h.broadcast_eq]
  by_cases h30 : n.bits ≤ 30
  · rw [if_pos h30, if_pos h30]
    constructor
    · rintro ⟨⟨hlo, hhi⟩, hne⟩
      have := hne h30
      rw [hrest hlo hhi] at this
      omega
    · rintro ⟨hlo, hhi⟩
      refine ⟨by omega, fun _ => ?_⟩
      rw [hrest (by omega) (by omega)]
      omega
  · rw [if_neg h30, if_neg h30]
    split
    · exact ⟨fun hx => by omega, fun hx => ⟨by omega, fun hb => absurd hb h30⟩⟩
    · have := hone (by omega)
      exact ⟨fun hx => by omega, fun hx => ⟨by omega, fun hb => absurd hb h30⟩⟩

end Net.WF

/-! ## Ranges -/

section

variable {n : Net} {base range : ℕ}

/-- The start is the first address from the base and the lower bound on that is not the own one. -/
lemma Net.start_spec (n : Net) (s : ℕ) : (n.lower : ℤ) ≤ n.start s ∧ (n.base s : ℤ) ≤ n.start s ∧
    n.start s ≠ n.ipaddr ∧
    ∀ x : ℕ, n.lower ≤ x → n.base s ≤ x → x ≠ n.ipaddr → n.start s ≤ x := by
  simp only [Net.start]
  refine ⟨?_, ?_, ?_, fun x hlo hbase hne => ?_⟩ <;> split_ifs <;> omega

/-- The end is the last address up to the upper bound, within the limit, that is not the own
one. -/
lemma Net.stop_spec (n : Net) (start : ℤ) (range : ℕ) : n.stop start range ≤ n.upper ∧
    n.stop start range ≤ start + range - 1 ∧ n.stop start range ≠ n.ipaddr ∧
    ∀ x : ℕ, (x : ℤ) ≤ n.upper → (x : ℤ) ≤ start + range - 1 → x ≠ n.ipaddr →
      (x : ℤ) ≤ n.stop start range := by
  simp only [Net.stop]
  refine ⟨?_, ?_, ?_, fun x hup hrange hne => ?_⟩ <;> split_ifs <;> omega

end

/-- A range as a server may use it: usable hosts without the own address at its ends, not more than
the limit, and all of those among the addresses that the limit counts. -/
structure Net.Range (n : Net) (start limit lo hi : ℕ) : Prop where
  le : lo ≤ hi
  usable : ∀ x, lo ≤ x → x ≤ hi → n.Usable x
  lo_ne : lo ≠ n.ipaddr
  hi_ne : hi ≠ n.ipaddr
  limited : hi - lo + 1 ≤ limit
  covers : ∀ x, n.Usable x → x ≠ n.ipaddr → n.base start ≤ x → x < n.base start + limit →
    lo ≤ x ∧ x ≤ hi

lemma Net.WF.range {n : Net} (h : n.WF) {start limit : ℕ}
    (hle : n.start start ≤ n.stop (n.start start) limit) :
    ∃ lo hi : ℕ, n.start start = lo ∧ n.stop (n.start start) limit = hi ∧
      n.Range start limit lo hi := by
  obtain ⟨hlower, hbase, hlone, hlo⟩ := n.start_spec start
  obtain ⟨hupper, hlimit, hhine, hhi⟩ := n.stop_spec (n.start start) limit
  generalize n.stop (n.start start) limit = last at *
  generalize n.start start = first at *
  obtain ⟨lo, rfl⟩ := Int.eq_ofNat_of_zero_le (by omega : 0 ≤ first)
  obtain ⟨hi, rfl⟩ := Int.eq_ofNat_of_zero_le (by omega : 0 ≤ last)
  refine ⟨lo, hi, rfl, rfl, by omega, fun x hx hx' => ?_, by omega, by omega, by omega,
    fun x hx hne hxb hxl => ?_⟩
  · exact (h.usable_iff x).mpr (by omega)
  · obtain ⟨hxlo, hxup⟩ := (h.usable_iff x).mp hx
    have := hlo x hxlo hxb hne
    have := hhi x hxup (by omega) hne
    omega

/-! ## The output -/

section

variable {format : Format} {n : Net} {rest args : List (List Char)} {START END : List Char}

lemma Format.ip2str_some (format : Format) {x : ℕ} (h : x ≤ uint_max) :
    ∃ s, format.ip2str x = some s := by
  have htext : (toString (x : ℤ)).toList = Nat.toDigits 10 x := Nat.toList_repr
  rw [Format.ip2str, htext, assert_uint32_iff.mpr ⟨h, rfl⟩]
  cases format with
  | quad => exact ⟨_, ip2str_iff.mpr ⟨h, rfl⟩⟩
  | decimal => exact ⟨_, rfl⟩
  | hexadecimal => exact ⟨_, rfl⟩

lemma Net.WF.printRange (h : n.WF) {start limit : ℕ} (hstart : start ≤ uint_max)
    (hlimit : limit ≤ uint_max) {r : Run}
    (hr : printRange format n [Nat.toDigits 10 start, Nat.toDigits 10 limit] = r)
    (ha : ("START", START) ∈ r.out) (hb : ("END", END) ∈ r.out) :
    ∃ lo hi : ℕ, format.ip2str lo = some START ∧ format.ip2str hi = some END ∧
      n.Range start limit lo hi := by
  subst hr
  have hne : Nat.toDigits 10 start ++ Nat.toDigits 10 limit ≠ [] := fun heq =>
    Nat.toDigits_ne_nil (List.append_eq_nil_iff.mp heq).1
  rw [Ipv4.printRange, if_neg hne, assert_uint32_iff.mpr ⟨hstart, rfl⟩,
    assert_uint32_iff.mpr ⟨hlimit, rfl⟩] at ha hb
  simp only [Run.orExit, Option.elim_some] at ha hb
  split_ifs at ha hb with hgt
  · cases ha
  · obtain ⟨lo, hi, hlo, hhi, hrange⟩ := h.range (not_lt.mp hgt)
    rw [hhi, hlo] at ha hb
    rcases hA : format.ip2str lo with - | A
    · rw [hA] at ha
      cases ha
    rcases hB : format.ip2str hi with - | B
    · rw [hA, hB] at ha
      cases ha
    rw [hA, hB] at ha hb
    have hA' : START = A := by simpa using ha
    have hB' : END = B := by simpa using hb
    exact ⟨lo, hi, hA' ▸ hA, hB' ▸ hB, hrange⟩

lemma Net.WF.broadcast_le (h : n.WF) : n.broadcast ≤ uint_max := by
  have hmask : n.hostmask ≤ uint_max := by
    have : 2 ^ (32 - n.bits) ≤ 2 ^ 32 := Nat.pow_le_pow_right (by decide) (Nat.sub_le _ _)
    rw [h.hostmask_eq, size, uint_max]
    omega
  have hnet := h.network_le.trans h.ipaddr_le
  rw [uint_max] at hmask hnet ⊢
  exact Nat.le_of_lt_succ (Nat.or_lt_two_pow (n := 32) (by omega) (by omega))

/-- With arguments that are accepted the lines of the network are printed, and then the range. -/
lemma Net.WF.ipcalc_eq (h : n.WF) (hargs : address (options args).2 = some (n, rest))
    (hrest : rest.length = 0 ∨ rest.length = 2) :
    ∃ IP NETMASK NETWORK broadcast, (options args).1.ip2str n.network = some NETWORK ∧
      (∀ l ∈ broadcast, l.1 = "BROADCAST") ∧
      ipcalc args = .echo ([("IP", IP), ("NETMASK", NETMASK)] ++ (broadcast ++
        [("NETWORK", NETWORK), ("PREFIX", Nat.toDigits 10 n.bits),
          ("COUNT", Nat.toDigits 10 n.count)])) (Ipv4.printRange (options args).1 n rest) := by
  obtain ⟨IP, hip⟩ := (options args).1.ip2str_some h.ipaddr_le
  obtain ⟨NETMASK, hmask⟩ := (options args).1.ip2str_some (h.netmask_eq ▸ maskOf_le n.bits)
  obtain ⟨NETWORK, hnet⟩ := (options args).1.ip2str_some (h.network_le.trans h.ipaddr_le)
  obtain ⟨BROADCAST, hbroad⟩ := (options args).1.ip2str_some h.broadcast_le
  obtain ⟨lines, hlines, hname⟩ : ∃ lines, printBroadcast (options args).1 n = some lines ∧
      ∀ l ∈ lines, l.1 = "BROADCAST" := by
    rw [printBroadcast]
    split
    · exact ⟨_, by rw [hbroad]; rfl, by simp⟩
    · exact ⟨[], rfl, by simp⟩
  refine ⟨IP, NETMASK, NETWORK, lines, hnet, hname, ?_⟩
  rw [ipcalc]
  generalize options args = o at *
  obtain ⟨format, args'⟩ := o
  dsimp only at *
  rw [hargs]
  simp only [Run.orExit, Option.elim_some]
  rw [if_neg (by omega), hip, hmask, hnet, hlines]
  simp only [Option.elim_some, Run.echo, List.append_assoc]

end

/-- `str2ip` and `ip2str`, and `prefix2netmask` and `netmask2prefix`, are inverse to each other, and
accept the dotted quads and the contiguous masks. `ipcalc.sh` prints the network and its size, and
a range only if it is one as a server may use it. -/
theorem ipcalc_correct :
    (∀ s v, str2ip s = some v ↔ ip2str v = some s) ∧
    (∀ s, (str2ip s).isSome = true ↔
      ∃ a b c d, a < 256 ∧ b < 256 ∧ c < 256 ∧ d < 256 ∧ s = dotted a b c d) ∧
    (∀ m p, netmask2prefix m = some p ↔ prefix2netmask p = some m) ∧
    (∀ m, ( netmask2prefix m).isSome = true ↔ ∃ p ≤ 32, m = 2 ^ 32 - 2 ^ (32 - p)) ∧
    ∀ args n rest, address (options args).2 = some (n, rest) →
      rest.length = 0 ∨ rest.length = 2 →
      n.network = 2 ^ (32 - n.bits) * (n.ipaddr / 2 ^ (32 - n.bits)) ∧ n.network ≤ n.ipaddr ∧
      (∃ NETWORK, (options args).1.ip2str n.network = some NETWORK ∧
        ("NETWORK", NETWORK) ∈ (ipcalc args).out) ∧
      ("COUNT", Nat.toDigits 10 (2 ^ (32 - n.bits))) ∈ (ipcalc args).out ∧
      ∀ start limit, start ≤ uint_max → limit ≤ uint_max →
        rest = [Nat.toDigits 10 start, Nat.toDigits 10 limit] →
        ∀ START END, (ipcalc args).exit = 0 → ("START", START) ∈ (ipcalc args).out →
          ("END", END) ∈ (ipcalc args).out →
          ∃ lo hi : ℕ, (options args).1.ip2str lo = some START ∧
            (options args).1.ip2str hi = some END ∧ n.Range start limit lo hi := by
  refine ⟨fun _ _ => str2ip_iff_ip2str, fun s => ?_, fun m p => ?_, fun m => ?_, ?_⟩
  · rw [Option.isSome_iff_exists]
    constructor
    · rintro ⟨v, hv⟩
      obtain ⟨a, b, c, d, ha, hb, hc, hd, -, hs⟩ := str2ip_iff.mp hv
      exact ⟨a, b, c, d, ha, hb, hc, hd, hs⟩
    · rintro ⟨a, b, c, d, ha, hb, hc, hd, hs⟩
      exact ⟨_, str2ip_iff.mpr ⟨a, b, c, d, ha, hb, hc, hd, rfl, hs⟩⟩
  · rw [netmask2prefix_iff, prefix2netmask_iff]
  · rw [Option.isSome_iff_exists]
    exact exists_congr fun p => netmask2prefix_iff
  · intro args n rest hargs hrest
    have h := address_wf hargs
    obtain ⟨IP, NETMASK, NETWORK, broadcast, hnet, hname, heq⟩ := h.ipcalc_eq hargs hrest
    refine ⟨h.network_eq, h.network_le, ⟨NETWORK, hnet, ?_⟩, ?_, ?_⟩
    · simp [heq, Run.echo]
    · have : n.count = 2 ^ (32 - n.bits) := h.count_eq
      simp [heq, Run.echo, this]
    · rintro start limit hstart hlimit rfl START END - ha hb
      -- the lines of the network have other names
      have hout : ∀ name v, name = "START" ∨ name = "END" → (name, v) ∈ (ipcalc args).out →
          (name, v) ∈ (printRange (options args).1 n
            [Nat.toDigits 10 start, Nat.toDigits 10 limit]).out := by
        intro name v hn hl
        have hb : (name, v) ∉ broadcast := by
          intro hmem
          have := hname _ hmem
          rcases hn with rfl | rfl <;> simp at this
        rw [heq, Run.echo, List.mem_append] at hl
        refine hl.resolve_left ?_
        rcases hn with rfl | rfl <;> simp [hb]
      exact h.printRange hstart hlimit rfl (hout _ _ (.inl rfl) ha) (hout _ _ (.inr rfl) hb)

/-- The DHCP range of a usual LAN. -/
theorem ipcalc_correct_lan : ∃ lo hi : ℕ, Format.quad.ip2str lo = some "192.168.1.100".toList ∧
    Format.quad.ip2str hi = some "192.168.1.249".toList ∧
    (⟨3232235777, 4294967040, 24⟩ : Net).Range 100 150 lo hi := by
  have hrun : ipcalc ["192.168.1.1/24".toList, Nat.toDigits 10 100, Nat.toDigits 10 150] =
      ⟨[("IP", "192.168.1.1".toList), ("NETMASK", "255.255.255.0".toList),
        ("BROADCAST", "192.168.1.255".toList), ("NETWORK", "192.168.1.0".toList),
        ("PREFIX", "24".toList), ("COUNT", "256".toList), ("START", "192.168.1.100".toList),
        ("END", "192.168.1.249".toList)], 0⟩ := by decide +kernel
  have hargs : address (options ["192.168.1.1/24".toList, Nat.toDigits 10 100,
      Nat.toDigits 10 150]).2 = some (⟨3232235777, 4294967040, 24⟩,
        [Nat.toDigits 10 100, Nat.toDigits 10 150]) := by decide +kernel
  exact (ipcalc_correct.2.2.2.2 _ _ _ hargs (.inr rfl)).2.2.2.2 100 150 (by decide) (by decide) rfl
    _ _ (by rw [hrun]) (by rw [hrun]; simp) (by rw [hrun]; simp)

end Ipv4
