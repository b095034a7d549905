/-
# Textual IP addresses

`str::parse::<IpAddr>` of the Rust standard library, as its documentation and its parser
describe it: dotted decimal for IPv4 (four numbers of one to three digits, each at most 255,
no leading zero), and RFC 4291 text for IPv6 (one to four hexadecimal digits a group, at most
one `::` standing for at least one zero group, an IPv4 address allowed in place of the last two
groups).  The whole text must be consumed.

A reader is a function from the remaining characters to a value and what is left of them;
`none` leaves the input where it was, which is what `read_atomically` does there.
-/
import Mathlib.Data.List.Induction
import Mathlib.Data.Nat.Notation
import Mathlib.Tactic.IntervalCases

namespace AzazelEdge.Lib

/-- `std::net::IpAddr`: the octets of an IPv4 address or the groups of an IPv6 one. -/
inductive IpAddr where
  | v4 (octets : List ℕ)
  | v6 (groups : List ℕ)
deriving DecidableEq, Repr

namespace IpAddr

/-- The value of a digit in base 10 or 16. -/
def digitValue (radix : ℕ) (c : Char) : Option ℕ :=
  let v :=
    if '0' ≤ c ∧ c ≤ '9' then some (c.toNat - '0'.toNat)
    else if 'a' ≤ c ∧ c ≤ 'f' then some (c.toNat - 'a'.toNat + 10)
    else if 'A' ≤ c ∧ c ≤ 'F' then some (c.toNat - 'A'.toNat + 10)
    else none
  v.filter (· < radix)

/-- The digits a number starts with, and what follows them. -/
def readDigits (radix : ℕ) : List Char → List ℕ × List Char
  | [] => ([], [])
  | c :: rest =>
    match digitValue radix c with
    | some d => ((d :: (readDigits radix rest).1), (readDigits radix rest).2)
    | none => ([], c :: rest)

/-- `read_number`: at least one and at most `maxDigits` digits, a value of at most `bound`, and
a leading zero only where `allowZeroPrefix` says so or the number is `0` itself. -/
def readNumber (radix maxDigits bound : ℕ) (allowZeroPrefix : Bool) (cs : List Char) :
    Option (ℕ × List Char) :=
  let (ds, rest) := readDigits radix cs
  let value := ds.foldl (fun acc d => acc * radix + d) 0
  if ds = [] ∨ maxDigits < ds.length ∨ bound < value then none
  else if !allowZeroPrefix && ds.head? = some 0 && 1 < ds.length then none
  else some (value, rest)

/-- `read_separator`: the separator stands before every item but the first. -/
def readSeparated {α : Type} (sep : Char) (index : ℕ) (inner : List Char → Option (α × List Char))
    (cs : List Char) : Option (α × List Char) :=
  if index = 0 then inner cs
  else match cs with
    | c :: rest => if c = sep then inner rest else none
    | [] => none

/-- `read_ipv4_addr`, from octet `i` on. -/
def readOctets : ℕ → ℕ → List Char → Option (List ℕ × List Char)
  | 0, _, cs => some ([], cs)
  | n + 1, i, cs =>
    match readSeparated '.' i (readNumber 10 3 255 false) cs with
    | none => none
    | some (octet, rest) =>
      match readOctets n (i + 1) rest with
      | none => none
      | some (octets, rest') => some (octet :: octets, rest')

/-- `read_ipv4_addr`. -/
def readIpv4 (cs : List Char) : Option (List ℕ × List Char) := readOctets 4 0 cs

/-- `read_groups`: up to `slots` groups starting with number `i`, the last two of which may be
written as an IPv4 address (then the flag is set and reading stops). -/
def readGroups : ℕ → ℕ → List Char → (List ℕ × Bool) × List Char
  | 0, _, cs => (([], false), cs)
  | slots + 1, i, cs =>
    match (if 0 < slots then readSeparated ':' i readIpv4 cs else none) with
    | some ([a, b, c, d], rest) => (([a * 256 + b, c * 256 + d], true), rest)
    | _ =>
      match readSeparated ':' i (readNumber 16 4 65535 true) cs with
      | none => (([], false), cs)
      | some (g, rest) =>
        let ((gs, ipv4), rest') := readGroups slots (i + 1) rest
        ((g :: gs, ipv4), rest')

/-- `read_ipv6_addr`: eight groups, or a front part, `::` and a back part of at most seven. -/
def readIpv6 (cs : List Char) : Option (List ℕ × List Char) :=
  let ((front, frontIpv4), rest) := readGroups 8 0 cs
  if front.length = 8 then some (front, rest)
  else if frontIpv4 then none
  else match rest with
    | ':' :: ':' :: rest =>
      let limit := 8 - (front.length + 1)
      let ((back, _), rest') := readGroups limit 0 rest
      some (front ++ List.replicate (8 - front.length - back.length) 0 ++ back, rest')
    | _ => none

/-- `str::parse::<IpAddr>`. -/
def parse (text : String) : Option IpAddr :=
  match readIpv4 text.toList with
  | some (octets, []) => some (v4 octets)
  | some (_, _ :: _) => none
  | none =>
    match readIpv6 text.toList with
    | some (groups, []) => some (v6 groups)
    | _ => none

/-! ## The characters of an IPv4 text -/

/-- A character of a dotted decimal address. -/
def Dotted (c : Char) : Prop := (digitValue 10 c).isSome = true ∨ c = '.'

theorem readDigits_split (radix : ℕ) (cs : List Char) :
    ∃ digits, cs = digits ++ (readDigits radix cs).2 ∧
      ∀ c ∈ digits, (digitValue radix c).isSome = true := by
  induction cs with
  | nil => exact ⟨[], rfl, by simp⟩
  | cons c rest ih =>
    rw [readDigits]
    cases hd : digitValue radix c with
    | none => exact ⟨[], rfl, by simp⟩
    | some d =>
      obtain ⟨digits, hsplit, hall⟩ := ih
      refine ⟨c :: digits, by rw [List.cons_append, ← hsplit], fun x hx => ?_⟩
      rcases List.mem_cons.mp hx with rfl | hx
      · rw [hd]; rfl
      · exact hall x hx

theorem readNumber_split {radix maxDigits bound n : ℕ} {zero : Bool} {cs rest : List Char}
    (h : readNumber radix maxDigits bound zero cs = some (n, rest)) :
    ∃ read, cs = read ++ rest ∧ ∀ c ∈ read, (digitValue radix c).isSome = true := by
  unfold readNumber at h
  dsimp only at h
  split at h
  · cases h
  · split at h
    · cases h
    · obtain ⟨-, rfl⟩ := Prod.mk.inj (Option.some.inj h)
      exact readDigits_split radix cs

/-- A reader takes a first part of the text, of these characters only. -/
def Takes (P : Char → Prop) {α : Type} (reader : List Char → Option (α × List Char)) : Prop :=
  ∀ cs a rest, reader cs = some (a, rest) → ∃ read, cs = read ++ rest ∧ ∀ c ∈ read, P c

theorem Takes.separated {P : Char → Prop} {α : Type} {inner : List Char → Option (α × List Char)}
    (hinner : Takes P inner) {sep : Char} (hsep : P sep) (i : ℕ) :
    Takes P (readSeparated sep i inner) := by
  intro cs a rest h
  unfold readSeparated at h
  split at h
  · exact hinner cs a rest h
  · split at h
    · split at h
      · rename_i c tail heq
        subst heq
        obtain ⟨read, rfl, hread⟩ := hinner tail a rest h
        refine ⟨c :: read, rfl, fun x hx => ?_⟩
        rcases List.mem_cons.mp hx with rfl | hx
        · exact hsep
        · exact hread x hx
      · cases h
    · cases h

theorem readOctets_split (n i : ℕ) : Takes Dotted (readOctets n i) := by
  induction n generalizing i with
  | zero =>
    intro cs octets rest h
    obtain ⟨-, rfl⟩ := Prod.mk.inj (Option.some.inj h)
    exact ⟨[], rfl, by simp⟩
  | succ n ih =>
    intro cs octets rest h
    rw [readOctets] at h
    split at h
    · cases h
    · rename_i octet rest₁ hfirst
      split at h
      · cases h
      · rename_i octets' rest₂ hlater
        obtain ⟨-, rfl⟩ := Prod.mk.inj (Option.some.inj h)
        have hnumber : Takes Dotted (readNumber 10 3 255 false) := by
          intro cs octet rest hread
          obtain ⟨read, hsplit, hall⟩ := readNumber_split hread
          exact ⟨read, hsplit, fun c hc => Or.inl (hall c hc)⟩
        obtain ⟨read, rfl, hread⟩ := hnumber.separated (Or.inr rfl) i cs octet rest₁ hfirst
        obtain ⟨later, hsplit, hall⟩ := ih (i + 1) _ _ _ hlater
        refine ⟨read ++ later, by rw [hsplit, List.append_assoc], fun x hx => ?_⟩
        rcases List.mem_append.mp hx with hx | hx
        · exact hread x hx
        · exact hall x hx

/-- **An IPv4 text is digits and dots.** -/
theorem dotted_of_v4 {text : String} {octets : List ℕ} (h : parse text = some (v4 octets)) :
    ∀ c ∈ text.toList, Dotted c := by
  unfold parse at h
  split at h
  · rename_i octets' hread
    obtain ⟨read, hsplit, hall⟩ := readOctets_split 4 0 _ _ _ hread
    rw [hsplit, List.append_nil]
    exact hall
  · cases h
  · split at h
    · cases Option.some.inj h
    · cases h

/-! ## The characters of an IPv6 text -/

/-- A character of an address. -/
def AddressChar (c : Char) : Prop := (digitValue 16 c).isSome = true ∨ c = '.' ∨ c = ':'

instance (c : Char) : Decidable (AddressChar c) := inferInstanceAs (Decidable (_ ∨ _))

theorem digitValue_hex {c : Char} (h : (digitValue 10 c).isSome = true) :
    (digitValue 16 c).isSome = true := by
  obtain ⟨v, hv⟩ := Option.isSome_iff_exists.mp h
  obtain ⟨hvalue, hlt⟩ := Option.filter_eq_some_iff.mp hv
  have hlt' : v < 10 := by simpa using hlt
  refine Option.isSome_iff_exists.mpr ⟨v, Option.filter_eq_some_iff.mpr ⟨hvalue, ?_⟩⟩
  simp only [decide_eq_true_eq]
  omega

theorem Dotted.addressChar {c : Char} (h : Dotted c) : AddressChar c := by
  rcases h with h | h
  · exact Or.inl (digitValue_hex h)
  · exact Or.inr (Or.inl h)

theorem takes_ipv4 : Takes AddressChar readIpv4 := by
  intro cs octets rest h
  obtain ⟨read, hsplit, hall⟩ := readOctets_split 4 0 cs octets rest h
  exact ⟨read, hsplit, fun c hc => (hall c hc).addressChar⟩

theorem takes_group : Takes AddressChar (readNumber 16 4 65535 true) := by
  intro cs group rest h
  obtain ⟨read, hsplit, hall⟩ := readNumber_split h
  exact ⟨read, hsplit, fun c hc => Or.inl (hall c hc)⟩

theorem readGroups_split (slots i : ℕ) (cs : List Char) :
    ∃ read, cs = read ++ (readGroups slots i cs).2 ∧ ∀ c ∈ read, AddressChar c := by
  induction slots generalizing i cs with
  | zero => exact ⟨[], rfl, by simp⟩
  | succ slots ih =>
    rw [readGroups]
    split
    · rename_i a b c d rest h
      split at h
      · exact takes_ipv4.separated (by decide) i _ _ _ h
      · cases h
    · split
      · exact ⟨[], rfl, by simp⟩
      · rename_i g rest h
        obtain ⟨read, rfl, hread⟩ := takes_group.separated (by decide) i _ _ _ h
        obtain ⟨later, hsplit, hall⟩ := ih (i + 1) rest
        refine ⟨read ++ later, by rw [List.append_assoc, ← hsplit], fun x hx => ?_⟩
        rcases List.mem_append.mp hx with hx | hx
        · exact hread x hx
        · exact hall x hx

theorem readSeparated_colon {α : Type} {inner : List Char → Option (α × List Char)} {i : ℕ}
    {cs : List Char} {x : α × List Char} (h : readSeparated ':' (i + 1) inner cs = some x) :
    ':' ∈ cs := by
  unfold readSeparated at h
  rw [if_neg (Nat.succ_ne_zero i)] at h
  split at h
  · split at h
    · rename_i c rest heq
      exact heq ▸ List.mem_cons_self
    · cases h
  · cases h

/-- A group after the first one has a colon before it. -/
theorem readGroups_colon {slots i : ℕ} {cs : List Char}
    (h : (readGroups slots (i + 1) cs).1.1 ≠ []) : ':' ∈ cs := by
  cases slots with
  | zero => exact absurd rfl h
  | succ slots =>
    rw [readGroups] at h
    split at h
    · rename_i hread
      split at hread
      · exact readSeparated_colon hread
      · cases hread
    · split at h
      · exact absurd rfl h
      · rename_i hread
        exact readSeparated_colon hread

/-- Eight groups have a colon between them. -/
theorem colon_of_eight {cs : List Char} (h : (readGroups 8 0 cs).1.1.length = 8) : ':' ∈ cs := by
  rw [readGroups] at h
  split at h
  · simp at h
  · split at h
    · simp at h
    · rename_i g rest hread
      have hlater : (readGroups 7 (0 + 1) rest).1.1 ≠ [] := by
        intro hnil
        simp [hnil] at h
      obtain ⟨read, rfl, -⟩ := takes_group.separated (by decide : AddressChar ':') 0 _ _ _ hread
      exact List.mem_append_right _ (readGroups_colon hlater)

/-- **An IPv6 text is hexadecimal digits, dots and colons, and has a colon.** -/
theorem readIpv6_chars {cs : List Char} {groups : List ℕ} (h : readIpv6 cs = some (groups, [])) :
    (∀ c ∈ cs, AddressChar c) ∧ ':' ∈ cs := by
  obtain ⟨read, hsplit, hall⟩ := readGroups_split 8 0 cs
  rw [readIpv6] at h
  split at h
  rename_i front flag rest hgroups
  rw [hgroups] at hsplit
  split at h
  · rename_i height
    obtain ⟨-, rfl⟩ := Prod.mk.inj (Option.some.inj h)
    refine ⟨by rw [hsplit, List.append_nil]; exact hall, colon_of_eight ?_⟩
    rw [hgroups]
    exact height
  · split at h
    · cases h
    · split at h
      · rename_i rest'
        dsimp only at h hsplit
        obtain ⟨back, hback, hall'⟩ := readGroups_split (8 - (front.length + 1)) 0 rest'
        have hend : (readGroups (8 - (front.length + 1)) 0 rest').2 = [] := by
          exact (Prod.mk.inj (Option.some.inj h)).2
        rw [hend, List.append_nil] at hback
        refine ⟨fun c hc => ?_, by rw [hsplit]; simp⟩
        rw [hsplit] at hc
        rcases List.mem_append.mp hc with hc | hc
        · exact hall c hc
        · rcases List.mem_cons.mp hc with rfl | hc
          · decide
          · rcases List.mem_cons.mp hc with rfl | hc
            · decide
            · exact hall' c (hback ▸ hc)
      · cases h

/-- **Every address is written in these characters.** -/
theorem addressChar_of_parse {text : String} {address : IpAddr} (h : parse text = some address) :
    ∀ c ∈ text.toList, AddressChar c := by
  cases address with
  | v4 octets => exact fun c hc => (dotted_of_v4 h c hc).addressChar
  | v6 groups =>
    unfold parse at h
    split at h
    · cases Option.some.inj h
    · cases h
    · split at h
      · rename_i hread
        exact (readIpv6_chars hread).1
      · cases h

/-- **A colon tells the two families apart.** -/
theorem colon_iff {text : String} {address : IpAddr} (h : parse text = some address) :
    ':' ∉ text.toList ↔ ∃ octets, address = v4 octets := by
  cases address with
  | v4 octets =>
    refine ⟨fun _ => ⟨octets, rfl⟩, fun _ hmem => ?_⟩
    rcases dotted_of_v4 h _ hmem with hdigit | hdot
    · exact absurd hdigit (by decide)
    · exact absurd hdot (by decide)
  | v6 groups =>
    refine ⟨fun hno => ?_, fun ⟨_, hv⟩ => by cases hv⟩
    unfold parse at h
    split at h
    · cases Option.some.inj h
    · cases h
    · split at h
      · rename_i hread
        exact absurd (readIpv6_chars hread).2 hno
      · cases h

theorem ne_nil_of_parse {text : String} {address : IpAddr} (h : parse text = some address) :
    text.toList ≠ [] := by
  intro hnil
  unfold parse at h
  rw [hnil] at h
  exact absurd h (by decide +revert)

/-! ## The text of an IPv4 address -/

theorem digitChar_of_digitValue {c : Char} {d : ℕ} (h : digitValue 10 c = some d) :
    d < 10 ∧ d.digitChar = c := by
  obtain ⟨hvalue, hlt⟩ := Option.filter_eq_some_iff.mp h
  have hlt : d < 10 := by simpa using hlt
  refine ⟨hlt, ?_⟩
  split at hvalue
  · rename_i hdigit
    have hd : c.toNat - '0'.toNat = d := Option.some.inj hvalue
    have hlow : '0'.toNat ≤ c.toNat := hdigit.1
    have hc : c = Char.ofNat ('0'.toNat + d) := by
      rw [← hd, Nat.add_sub_cancel' hlow, Char.ofNat_toNat]
    rw [hc]
    clear hvalue hd hc hlow hdigit h
    interval_cases d <;> rfl
  · split at hvalue
    · have := Option.some.inj hvalue
      omega
    · split at hvalue
      · have := Option.some.inj hvalue
        omega
      · cases hvalue

theorem readDigits_text (cs : List Char) :
    (readDigits 10 cs).1.map Nat.digitChar ++ (readDigits 10 cs).2 = cs ∧
      ∀ d ∈ (readDigits 10 cs).1, d < 10 := by
  induction cs with
  | nil => exact ⟨rfl, fun _ h => by cases h⟩
  | cons c rest ih =>
    rw [readDigits]
    cases hd : digitValue 10 c with
    | none => exact ⟨rfl, fun _ h => by cases h⟩
    | some d =>
      obtain ⟨hlt, hchar⟩ := digitChar_of_digitValue hd
      refine ⟨by rw [List.map_cons, List.cons_append, ih.1, hchar], fun x hx => ?_⟩
      rcases List.mem_cons.mp hx with rfl | hx
      · exact hlt
      · exact ih.2 x hx

/-- Digits that start with no zero are the digits of their number. -/
theorem toDigits_foldl (ds : List ℕ) (hne : ds ≠ []) (hlt : ∀ d ∈ ds, d < 10)
    (hhead : ds.head? ≠ some 0 ∨ ds.length = 1) :
    Nat.toDigits 10 (ds.foldl (fun acc d => acc * 10 + d) 0) = ds.map Nat.digitChar ∧
      (ds.head? ≠ some 0 → 0 < ds.foldl (fun acc d => acc * 10 + d) 0) := by
  induction ds using List.reverseRecOn with
  | nil => exact absurd rfl hne
  | append_singleton ds d ih =>
    have hd : d < 10 := hlt d (by simp)
    rw [List.foldl_append, List.foldl_cons, List.foldl_nil, List.map_append]
    cases ds with
    | nil =>
      rw [List.foldl_nil, Nat.zero_mul, Nat.zero_add, Nat.toDigits_of_lt_base hd]
      refine ⟨rfl, fun h => Nat.pos_of_ne_zero fun hzero => h (by rw [hzero]; rfl)⟩
    | cons x xs =>
      have hhead' : (x :: xs).head? ≠ some 0 := by
        rcases hhead with h | h
        · exact h
        · simp at h
      obtain ⟨htext, hpos⟩ := ih (by simp) (fun y hy => hlt y (List.mem_append_left _ hy))
        (Or.inl hhead')
      have hpos := hpos hhead'
      rw [← htext, Nat.mul_comm, ← Nat.toDigits_append_toDigits (by decide) hpos hd,
        Nat.toDigits_of_lt_base hd]
      exact ⟨rfl, fun _ => by omega⟩

/-- A decimal number is read from the one text it has. -/
theorem readNumber_text {cs rest : List Char} {n : ℕ}
    (h : readNumber 10 3 255 false cs = some (n, rest)) : cs = Nat.toDigits 10 n ++ rest := by
  obtain ⟨htext, hlt⟩ := readDigits_text cs
  unfold readNumber at h
  dsimp only at h
  split at h
  · cases h
  rename_i hfine
  split at h
  · cases h
  rename_i hzero
  obtain ⟨rfl, rfl⟩ := Prod.mk.inj (Option.some.inj h)
  have hne : (readDigits 10 cs).1 ≠ [] := fun hnil => hfine (Or.inl hnil)
  have hlen : 0 < (readDigits 10 cs).1.length := List.length_pos_iff.mpr hne
  have hhead : (readDigits 10 cs).1.head? ≠ some 0 ∨ (readDigits 10 cs).1.length = 1 := by
    by_cases hlong : 1 < (readDigits 10 cs).1.length
    · exact Or.inl fun hz => hzero (by simp [hz, hlong])
    · exact Or.inr (by omega)
  rw [(toDigits_foldl _ hne hlt hhead).1, htext]

/-- The text of octets, each but the first after a dot. -/
def octetsText : ℕ → List ℕ → List Char
  | _, [] => []
  | i, octet :: octets =>
    (if i = 0 then [] else ['.']) ++ Nat.toDigits 10 octet ++ octetsText (i + 1) octets

theorem readOctets_text {n i : ℕ} {cs rest : List Char} {octets : List ℕ}
    (h : readOctets n i cs = some (octets, rest)) : cs = octetsText i octets ++ rest := by
  induction n generalizing i cs octets with
  | zero =>
    obtain ⟨rfl, rfl⟩ := Prod.mk.inj (Option.some.inj h)
    rfl
  | succ n ih =>
    rw [readOctets] at h
    split at h
    · cases h
    rename_i octet rest₁ hfirst
    split at h
    · cases h
    rename_i octets' rest₂ hlater
    obtain ⟨rfl, rfl⟩ := Prod.mk.inj (Option.some.inj h)
    have hrest := ih hlater
    have hcs : cs = (if i = 0 then [] else ['.']) ++ Nat.toDigits 10 octet ++ rest₁ := by
      unfold readSeparated at hfirst
      split at hfirst
      · rename_i hi
        rw [if_pos hi, List.nil_append]
        exact readNumber_text hfirst
      · rename_i hi
        rw [if_neg hi]
        split at hfirst
        · split at hfirst
          · rename_i c tail hc
            rw [hc, readNumber_text hfirst]
            rfl
          · cases hfirst
        · cases hfirst
    rw [hcs, hrest, octetsText, List.append_assoc _ _ rest₂]

/-- **An IPv4 address has one text.** -/
theorem v4_text_unique {text text' : String} {octets : List ℕ} (h : parse text = some (v4 octets))
    (h' : parse text' = some (v4 octets)) : text = text' := by
  have hread : ∀ {s : String}, parse s = some (v4 octets) → s.toList = octetsText 0 octets := by
    intro s hs
    unfold parse at hs
    split at hs
    · rename_i octets' hread
      obtain rfl := IpAddr.v4.inj (Option.some.inj hs)
      rw [readOctets_text hread, List.append_nil]
    · cases hs
    · split at hs
      · cases Option.some.inj hs
      · cases hs
  exact String.toList_injective ((hread h).trans (hread h').symm)

example : parse "192.0.2.7" = some (v4 [192, 0, 2, 7]) := by decide +kernel

example : parse "2001:DB8::7" = parse "2001:db8:0:0:0:0:0:7" := by decide +kernel

example : parse "192.0.2.07" = none := by decide +kernel

end IpAddr

end AzazelEdge.Lib
