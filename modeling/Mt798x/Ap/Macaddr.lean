import Mathlib

/-!
# Addresses of the interfaces of a phy

A phy keeps a list of addresses that are in use, with a value for each: the number of the BSS that
has it, or -1.  `macaddr_next` tries the addresses that `macaddr_generate` makes of the ids 0 to 31
and delivers the first that is not in the list.
-/

namespace Ap

/-- Addresses in use. -/
abbrev MacaddrList := String → Option ℤ

/-- What sysfs says of a phy, and its radio if there is one. -/
structure Phy where
  radio : Option ℕ
  macaddress : String
  address_mask : String
  addresses : List String

/-- The options of the address generator. -/
structure MacaddrOptions where
  num_global : ℤ
  macaddr_base : Option String
  mbssid : ℤ

/-- The value of a hexadecimal text. -/
def hex (val : List Char) : ℕ :=
  val.foldl (fun n c => 16 * n +
    if '0' ≤ c ∧ c ≤ '9' then c.toNat - 48
    else if 'a' ≤ c ∧ c ≤ 'f' then c.toNat - 87
    else if 'A' ≤ c ∧ c ≤ 'F' then c.toNat - 55 else 0) 0

/-- `macaddr_split` -/
def macaddr_split (str : String) : List ℕ := (str.toList.splitOn ':').map hex

/-- A number in at least two hexadecimal digits. -/
def twoDigits (n : ℕ) : List Char :=
  if n < 16 then '0' :: Nat.toDigits 16 n else Nat.toDigits 16 n

/-- `macaddr_join` -/
def macaddr_join (addr : List ℕ) : String :=
  String.ofList ([':'].intercalate (addr.map twoDigits))

/-- An id is added to the bytes of an address from a place on, downwards, as long as there is a
carry; the first byte stays. -/
def addFrom (idx : ℕ) : ℕ → List ℕ → List ℕ
  | 0, addr => addr
  | i + 1, addr =>
    let v := addr.getD (i + 1) 0 + idx
    if v < 256 then addr.set (i + 1) v else addFrom idx i (addr.set (i + 1) (v % 256))

/-- An id is put into the first byte of an address, which becomes a local one. -/
def intoFirst (idx : ℕ) (addr : List ℕ) : List ℕ :=
  let idx := if addr.getD 0 0 &&& 2 = 0 then idx - 1 else idx
  addr.modify 0 fun b => (b ||| 2) ^^^ (idx <<< 2)

/-- An id is put into the last byte of an address, which becomes a local one if it is to. -/
def intoLast (localBit : Bool) (idx : ℕ) (addr : List ℕ) : List ℕ :=
  (if localBit then addr.modify 0 (· ||| 2) else addr).modify 5 (· ^^^ idx)

/-- The mask of a phy; one that masks nothing stands for one that masks all. -/
def Phy.base_mask (phy : Phy) : String :=
  if phy.address_mask = "00:00:00:00:00:00" then "ff:ff:ff:ff:ff:ff" else phy.address_mask

/-- The address that an id is put into, and the id, or an address of the phy as it is. -/
def Phy.base (phy : Phy) (data : MacaddrOptions) (id : ℕ) : String ⊕ (String × ℕ) :=
  match data.macaddr_base.filter (· ≠ "") with
  | some base_addr => .inr (base_addr, id)
  | none =>
    if phy.base_mask = "ff:ff:ff:ff:ff:ff" ∧ (0 < phy.radio.getD 0 ∨ data.num_global ≤ id) then
      match phy.radio with
      | some radio_idx =>
        if radio_idx ≠ 0 ∧ radio_idx < phy.addresses.length then
          .inr (phy.addresses.getD radio_idx "", id)
        else .inr (phy.macaddress, id + radio_idx * 16)
      | none =>
        if id < phy.addresses.length then .inl (phy.addresses.getD id "")
        else .inr (phy.macaddress, id)
    else .inr (phy.macaddress, id)

/-- `macaddr_generate` for an id. -/
def macaddr_generate (phy : Phy) (data : MacaddrOptions) (id : ℕ) : Option String :=
  if phy.macaddress = "" ∨ phy.address_mask = "" then none
  else
    match phy.base data id with
    | .inl addr => some addr
    | .inr (base_addr, idx) =>
      if idx = 0 ∧ ¬ 0 < data.mbssid then some base_addr
      else
        let addr := macaddr_split base_addr
        let mask := macaddr_split phy.base_mask
        some (macaddr_join (
          if 0 < data.mbssid then intoLast true idx addr
          else if id < data.num_global then addFrom idx 5 addr
          else if 0 < mask.getD 0 0 then intoFirst idx addr
          else if mask.getD 5 0 < 0xff then intoLast false idx addr
          else addFrom idx 5 addr))

/-- `macaddr_init`: the addresses of the interfaces of the phy are in use. -/
def macaddr_init (wdevs : List String) (used : MacaddrList) : MacaddrList := fun addr =>
  match used addr with
  | some v => some v
  | none => if addr ∈ wdevs then some (-1) else none

/-- The loop of `macaddr_next` over these ids, with the addresses they make. -/
def nextOf (generate : ℕ → Option String) (list : MacaddrList) : List ℕ → Option String
  | [] => none
  | i :: ids =>
    match generate i with
    | none => none
    | some mac => if (list mac).isSome then nextOf generate list ids else some mac

/-- `macaddr_next`: an address that is not in the list, and the list with it. -/
def macaddr_next (generate : ℕ → Option String) (list : MacaddrList) (val : ℤ) :
    Option (String × MacaddrList) :=
  (nextOf generate list (List.range 32)).map fun mac =>
    (mac, Function.update list mac (some val))

section

variable {generate : ℕ → Option String} {list list' : MacaddrList} {mac : String} {val : ℤ}

lemma nextOf_spec {ids : List ℕ} (h : nextOf generate list ids = some mac) :
    list mac = none ∧ ∃ i ∈ ids, generate i = some mac := by
  induction ids with
  | nil => cases h
  | cons i ids ih =>
    rw [nextOf] at h
    split at h
    · cases h
    · rename_i found hfound
      split at h
      · obtain ⟨hnone, j, hj, hmac⟩ := ih h
        exact ⟨hnone, j, List.mem_cons_of_mem _ hj, hmac⟩
      · rename_i hused
        cases h
        exact ⟨by simpa using hused, i, List.mem_cons_self, hfound⟩

/-- An address that `macaddr_next` delivers was free, is one of the generator's, and is in use from
then on. -/
lemma macaddr_next_spec (h : macaddr_next generate list val = some (mac, list')) :
    list mac = none ∧ (∃ i < 32, generate i = some mac) ∧
      list' = Function.update list mac (some val) := by
  obtain ⟨found, hfound, heq⟩ := Option.map_eq_some_iff.mp h
  cases heq
  obtain ⟨hnone, i, hi, hmac⟩ := nextOf_spec hfound
  exact ⟨hnone, ⟨i, List.mem_range.mp hi, hmac⟩, rfl⟩

lemma nextOf_isSome {ids : List ℕ} (hall : ∀ i ∈ ids, (generate i).isSome) {i : ℕ} (hi : i ∈ ids)
    (hmac : generate i = some mac) (hfree : list mac = none) :
    (nextOf generate list ids).isSome := by
  induction ids with
  | nil => cases hi
  | cons j ids ih =>
    obtain ⟨found, hfound⟩ := Option.isSome_iff_exists.mp (hall j List.mem_cons_self)
    rw [nextOf, hfound]
    simp only
    split
    · rename_i hused
      rcases List.mem_cons.mp hi with rfl | hi
      · rw [hfound] at hmac
        cases hmac
        rw [hfree] at hused
        cases hused
      · exact ih (fun k hk => hall k (List.mem_cons_of_mem _ hk)) hi
    · rfl

end

end Ap
