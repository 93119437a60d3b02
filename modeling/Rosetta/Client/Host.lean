import Mathlib.Computability.RegularExpressions
import Rosetta.Config.Basic

/-!
# The address of a host

`gethostip` asks the resolver for an address. When that knows none, a name that is an address itself
is taken as it is; a regular expression decides whether it is one.

* `ip4pattern` — the regular expression
* `IsAddress` — four numbers up to 255 with dots between them
* `rmatch_ip4pattern` — the two say the same
* `gethostip_eq` — what `gethostip` returns
-/

namespace Rosetta

open RegularExpression

/-! ## The regular expression -/

/-- The character of a digit. -/
def digitChar (d : Nat) : UInt8 := UInt8.ofNat (48 + d)

/-- `[0-n]`. -/
def upTo (n : Nat) : RegularExpression UInt8 :=
  (List.range (n + 1)).foldr (fun d r => char (digitChar d) + r) 0

/-- `(2(5[0-5]|[0-4]\d))|[0-1]?\d{1,2}`. -/
def ip4byte : RegularExpression UInt8 :=
  char 50 * (char 53 * upTo 5 + upTo 4 * upTo 9) + (1 + upTo 1) * (upTo 9 + upTo 9 * upTo 9)

/-- A byte, and three more of them after a dot each. -/
def ip4pattern : RegularExpression UInt8 :=
  ip4byte * ((char 46 * ip4byte) * ((char 46 * ip4byte) * (char 46 * ip4byte)))

/-! ## What it is for -/

/-- The number that the digits are read as. -/
def decimal (ds : List Nat) : Nat := ds.foldl (fun n d => 10 * n + d) 0

/-- One to three digits, which are a number up to 255. -/
def IsByte (x : Bytes) : Prop :=
  ∃ ds : List Nat, x = ds.map digitChar ∧ ds ≠ [] ∧ ds.length ≤ 3 ∧ (∀ d ∈ ds, d ≤ 9) ∧
    decimal ds ≤ 255

def IsAddress (s : Bytes) : Prop :=
  ∃ a b c d, IsByte a ∧ IsByte b ∧ IsByte c ∧ IsByte d ∧
    s = a ++ 46 :: (b ++ 46 :: (c ++ 46 :: d))

/-! ## A byte -/

theorem mem_char {c : UInt8} {x : Bytes} : x ∈ (char c).matches' ↔ x = [c] := Iff.rfl

theorem mem_add {P Q : RegularExpression UInt8} {x : Bytes} :
    x ∈ (P + Q).matches' ↔ x ∈ P.matches' ∨ x ∈ Q.matches' := Language.mem_add _ _ _

theorem mem_mul {P Q : RegularExpression UInt8} {x : Bytes} :
    x ∈ (P * Q).matches' ↔ ∃ y ∈ P.matches', ∃ z ∈ Q.matches', y ++ z = x := Language.mem_mul

theorem mem_one {x : Bytes} : x ∈ (1 : RegularExpression UInt8).matches' ↔ x = [] :=
  Language.mem_one x

theorem mem_upTo {n : Nat} {x : Bytes} :
    x ∈ (upTo n).matches' ↔ ∃ d ≤ n, x = [digitChar d] := by
  have hfold : ∀ ds : List Nat, x ∈ (ds.foldr (fun d r => char (digitChar d) + r) 0).matches' ↔
      ∃ d ∈ ds, x = [digitChar d] := by
    intro ds
    induction ds with
    | nil => simp [Language.notMem_zero]
    | cons d ds ih =>
      rw [List.foldr_cons, mem_add, ih, mem_char]
      simp
  rw [upTo, hfold]
  simp only [List.mem_range, Nat.lt_succ_iff]

theorem isByte_of_mem {x : Bytes} (h : x ∈ ip4byte.matches') : IsByte x := by
  rcases mem_add.mp h with h | h
  · obtain ⟨_, rfl, z, hz, rfl⟩ := mem_mul.mp h
    rcases mem_add.mp hz with hz | hz
    · -- 250 to 255
      obtain ⟨_, rfl, _, hc, rfl⟩ := mem_mul.mp hz
      obtain ⟨c, hc, rfl⟩ := mem_upTo.mp hc
      refine ⟨[2, 5, c], rfl, by simp, by simp, ?_, ?_⟩
      · simp
        omega
      · simp only [decimal, List.foldl_cons, List.foldl_nil]
        omega
    · -- 200 to 249
      obtain ⟨_, hb, _, hc, rfl⟩ := mem_mul.mp hz
      obtain ⟨b, hb, rfl⟩ := mem_upTo.mp hb
      obtain ⟨c, hc, rfl⟩ := mem_upTo.mp hc
      refine ⟨[2, b, c], rfl, by simp, by simp, ?_, ?_⟩
      · simp
        omega
      · simp only [decimal, List.foldl_cons, List.foldl_nil]
        omega
  · obtain ⟨y, hy, z, hz, rfl⟩ := mem_mul.mp h
    -- one or two digits, perhaps after a 0 or a 1
    obtain ⟨zs, rfl, hne, hlen, hle, hvalue⟩ : ∃ zs : List Nat, z = zs.map digitChar ∧ zs ≠ [] ∧
        zs.length ≤ 2 ∧ (∀ d ∈ zs, d ≤ 9) ∧ ∀ a ≤ 1, decimal (a :: zs) ≤ 199 := by
      rcases mem_add.mp hz with hz | hz
      · obtain ⟨c, hc, rfl⟩ := mem_upTo.mp hz
        refine ⟨[c], rfl, by simp, by simp, by simpa using hc, fun a ha => ?_⟩
        simp only [decimal, List.foldl_cons, List.foldl_nil]
        omega
      · obtain ⟨_, hmb, _, hmc, rfl⟩ := mem_mul.mp hz
        obtain ⟨b, hb, rfl⟩ := mem_upTo.mp hmb
        obtain ⟨c, hc, rfl⟩ := mem_upTo.mp hmc
        refine ⟨[b, c], rfl, by simp, by simp, by simp [hb, hc], fun a ha => ?_⟩
        simp only [decimal, List.foldl_cons, List.foldl_nil]
        omega
    rcases mem_add.mp hy with hy | hy
    · obtain rfl := mem_one.mp hy
      refine ⟨zs, rfl, hne, by omega, hle, ?_⟩
      have hzero := hvalue 0 (by decide)
      have hsame : decimal (0 :: zs) = decimal zs := rfl
      omega
    · obtain ⟨a, ha, rfl⟩ := mem_upTo.mp hy
      refine ⟨a :: zs, rfl, by simp, Nat.succ_le_succ hlen, ?_, (hvalue a ha).trans (by decide)⟩
      intro d hd
      rcases List.mem_cons.mp hd with rfl | hd
      · omega
      · exact hle d hd

theorem mem_of_isByte {x : Bytes} (h : IsByte x) : x ∈ ip4byte.matches' := by
  obtain ⟨ds, rfl, hne, hlen, hle, hvalue⟩ := h
  -- `[0-1]?` before one or two digits
  have hshort : ∀ y z : Bytes, (y = [] ∨ ∃ a ≤ 1, y = [digitChar a]) →
      z ∈ (upTo 9 + upTo 9 * upTo 9).matches' → y ++ z ∈ ip4byte.matches' := by
    intro y z hy hz
    refine mem_add.mpr (.inr (mem_mul.mpr ⟨y, mem_add.mpr ?_, z, hz, rfl⟩))
    exact hy.imp mem_one.mpr mem_upTo.mpr
  match ds, hne with
  | [c], _ =>
    have hc : c ≤ 9 := hle c (by simp)
    exact hshort [] _ (.inl rfl) (mem_add.mpr (.inl (mem_upTo.mpr ⟨c, hc, rfl⟩)))
  | [b, c], _ =>
    have hb : b ≤ 9 := hle b (by simp)
    have hc : c ≤ 9 := hle c (by simp)
    exact hshort [] _ (.inl rfl) (mem_add.mpr (.inr (mem_mul.mpr
      ⟨_, mem_upTo.mpr ⟨b, hb, rfl⟩, _, mem_upTo.mpr ⟨c, hc, rfl⟩, rfl⟩)))
  | [a, b, c], _ =>
    have hb : b ≤ 9 := hle b (by simp)
    have hc : c ≤ 9 := hle c (by simp)
    simp only [decimal, List.foldl_cons, List.foldl_nil] at hvalue
    by_cases ha : a ≤ 1
    · exact hshort [_] _ (.inr ⟨a, ha, rfl⟩) (mem_add.mpr (.inr (mem_mul.mpr
        ⟨_, mem_upTo.mpr ⟨b, hb, rfl⟩, _, mem_upTo.mpr ⟨c, hc, rfl⟩, rfl⟩)))
    · obtain rfl : a = 2 := by omega
      refine mem_add.mpr (.inl (mem_mul.mpr ⟨_, rfl, _, mem_add.mpr ?_, rfl⟩))
      by_cases hfour : b ≤ 4
      · exact .inr (mem_mul.mpr
          ⟨_, mem_upTo.mpr ⟨b, hfour, rfl⟩, _, mem_upTo.mpr ⟨c, hc, rfl⟩, rfl⟩)
      · obtain rfl : b = 5 := by omega
        exact .inl (mem_mul.mpr ⟨_, rfl, _, mem_upTo.mpr ⟨c, by omega, rfl⟩, rfl⟩)
  | _ :: _ :: _ :: _ :: _, _ =>
    simp only [List.length_cons] at hlen
    omega

theorem mem_ip4byte {x : Bytes} : x ∈ ip4byte.matches' ↔ IsByte x :=
  ⟨isByte_of_mem, mem_of_isByte⟩

/-! ## An address -/

/-- **The regular expression accepts the addresses.** -/
theorem rmatch_ip4pattern (s : Bytes) : ip4pattern.rmatch s = true ↔ IsAddress s := by
  rw [rmatch_iff_matches']
  have hdot : ∀ x, x ∈ (char 46 * ip4byte).matches' ↔ ∃ b, IsByte b ∧ x = 46 :: b := by
    intro x
    simp only [mem_mul, mem_char, mem_ip4byte]
    constructor
    · rintro ⟨_, rfl, b, hb, rfl⟩
      exact ⟨b, hb, rfl⟩
    · rintro ⟨b, hb, rfl⟩
      exact ⟨_, rfl, b, hb, rfl⟩
  constructor
  · intro h
    obtain ⟨a, ha, _, hrest, rfl⟩ := mem_mul.mp h
    obtain ⟨_, hmb, _, hrest', rfl⟩ := mem_mul.mp hrest
    obtain ⟨_, hmc, _, hmd, rfl⟩ := mem_mul.mp hrest'
    obtain ⟨b, hb, rfl⟩ := (hdot _).mp hmb
    obtain ⟨c, hc, rfl⟩ := (hdot _).mp hmc
    obtain ⟨d, hd, rfl⟩ := (hdot _).mp hmd
    exact ⟨a, b, c, d, mem_ip4byte.mp ha, hb, hc, hd, rfl⟩
  · rintro ⟨a, b, c, d, ha, hb, hc, hd, rfl⟩
    refine mem_mul.mpr ⟨a, mem_ip4byte.mpr ha, _, mem_mul.mpr ?_, rfl⟩
    refine ⟨46 :: b, (hdot _).mpr ⟨b, hb, rfl⟩, _, mem_mul.mpr ?_, rfl⟩
    exact ⟨46 :: c, (hdot _).mpr ⟨c, hc, rfl⟩, _, (hdot _).mpr ⟨d, hd, rfl⟩, rfl⟩

instance (s : Bytes) : Decidable (IsAddress s) :=
  decidable_of_iff _ (rmatch_ip4pattern s)

/-! ## What `gethostip` returns -/

/-- `ai_family`. -/
inductive Family where
  | inet | inet6 | other
  deriving DecidableEq, Repr

/-- An address that `getaddrinfo` returns, as `inet_ntop` writes it. -/
structure AddrInfo where
  family : Family
  text : Bytes

/-- The loop over the addresses of a name. -/
def addressLoop (ipaddr : Bytes) : List AddrInfo → Bytes
  | [] => ipaddr
  | info :: infos =>
    if ipaddr ≠ [] then ipaddr
    else
      match info.family with
      | .inet => addressLoop info.text infos
      | .inet6 | .other => addressLoop ipaddr infos

/-- `Socket::gethostip`, with the answer of the resolver for each name. -/
def gethostip (getaddrinfo : Bytes → Option (List AddrInfo)) (hostname : Bytes) : Bytes :=
  let ipaddr := match getaddrinfo (cString hostname) with
    | some infos => addressLoop [] infos
    | none => []
  if ipaddr ≠ [] then ipaddr
  else if ip4pattern.rmatch hostname then hostname
  else if hostname = chars "localhost" then chars "127.0.0.1"
  else []

/-- The first address that the resolver has for IPv4. -/
def resolved (getaddrinfo : Bytes → Option (List AddrInfo)) (hostname : Bytes) : Option Bytes :=
  (getaddrinfo (cString hostname)).bind fun infos =>
    (infos.find? fun info => info.family = .inet ∧ info.text ≠ []).map AddrInfo.text

theorem addressLoop_of_ne {ipaddr : Bytes} (h : ipaddr ≠ []) (infos : List AddrInfo) :
    addressLoop ipaddr infos = ipaddr := by
  cases infos with
  | nil => rfl
  | cons info infos => rw [addressLoop, if_pos h]

theorem addressLoop_nil (infos : List AddrInfo) : addressLoop [] infos =
    ((infos.find? fun info => info.family = .inet ∧ info.text ≠ []).map AddrInfo.text).getD [] := by
  induction infos with
  | nil => rfl
  | cons info infos ih =>
    rw [addressLoop, if_neg (by simp)]
    cases hfamily : info.family with
    | inet =>
      by_cases htext : info.text = []
      · rw [List.find?_cons_of_neg (by simp [htext]), htext]
        exact ih
      · rw [List.find?_cons_of_pos (by simp [hfamily, htext])]
        exact addressLoop_of_ne htext infos
    | inet6 | other =>
      rw [List.find?_cons_of_neg (by simp [hfamily])]
      exact ih

theorem resolved_ne {getaddrinfo : Bytes → Option (List AddrInfo)} {hostname ipaddr : Bytes}
    (h : resolved getaddrinfo hostname = some ipaddr) : ipaddr ≠ [] := by
  obtain ⟨infos, -, h⟩ := Option.bind_eq_some_iff.mp h
  obtain ⟨info, hfind, rfl⟩ := Option.map_eq_some_iff.mp h
  have hinfo := List.find?_some hfind
  simp only [decide_eq_true_eq] at hinfo
  exact hinfo.2

/--
**The address of a host.**

For every resolver and every name: the first IPv4 address that the resolver has; otherwise the name
itself if it is four numbers up to 255 with dots between them, each of at most three digits;
otherwise 127.0.0.1 for `localhost`, and nothing for all other names.
-/
theorem gethostip_eq (getaddrinfo : Bytes → Option (List AddrInfo)) (hostname : Bytes) :
    gethostip getaddrinfo hostname = (resolved getaddrinfo hostname).getD
      (if IsAddress hostname then hostname
        else if hostname = chars "localhost" then chars "127.0.0.1" else []) := by
  have hfound : (match getaddrinfo (cString hostname) with
      | some infos => addressLoop [] infos
      | none => []) = (resolved getaddrinfo hostname).getD [] := by
    unfold resolved
    cases getaddrinfo (cString hostname) with
    | none => rfl
    | some infos => exact addressLoop_nil infos
  unfold gethostip
  simp only [hfound, rmatch_ip4pattern]
  cases hresolved : resolved getaddrinfo hostname with
  | none => simp
  | some ipaddr => simp [resolved_ne hresolved]

end Rosetta
