/-
  QingzhouSSH.Lib.NetChars — the characters of a textual address.

  A reader consumes a part of its text.  What the address readers consume has only
  hexadecimal digits, dots and colons.

  Main result: `chars_of_parseIpAddr` — so has every text that is an address.
-/
import QingzhouSSH.Lib.Net

namespace QingzhouSSH.Lib.Net

def isAddressChar (c : Char) : Bool := c == '.' || c == ':' || (digitValue 16 c).isSome

/-- What is left of `s` once address characters are taken off its start. -/
def Consumes (s rest : List Char) : Prop :=
  ∃ front, s = front ++ rest ∧ ∀ c ∈ front, isAddressChar c = true

theorem Consumes.refl (s : List Char) : Consumes s s := ⟨[], rfl, nofun⟩

theorem Consumes.trans {s t u : List Char} (h : Consumes s t) (h' : Consumes t u) :
    Consumes s u := by
  obtain ⟨front, rfl, hfront⟩ := h
  obtain ⟨next, rfl, hnext⟩ := h'
  refine ⟨front ++ next, (List.append_assoc _ _ _).symm, fun c hc => ?_⟩
  rcases List.mem_append.mp hc with hc | hc
  · exact hfront c hc
  · exact hnext c hc

theorem Consumes.cons {c : Char} (hc : isAddressChar c = true) (s : List Char) :
    Consumes (c :: s) s := by
  refine ⟨[c], rfl, fun d hd => ?_⟩
  rwa [List.mem_singleton.mp hd]

/-- A decimal digit is a hexadecimal one. -/
theorem digitValue_hex {c : Char} (h : (digitValue 10 c).isSome = true) :
    (digitValue 16 c).isSome = true := by
  unfold digitValue at h ⊢
  dsimp only at h ⊢
  split at h
  next hdigit =>
    rw [if_pos hdigit]
    split at h
    next hlt => rw [if_pos (by omega)]; rfl
    next => cases h
  next hdigit =>
    rw [if_neg hdigit]
    split at h
    next hlower =>
      rw [if_pos hlower]
      split at h
      next hlt => rw [if_pos (by omega)]; rfl
      next => cases h
    next hlower =>
      rw [if_neg hlower]
      split at h
      next hupper =>
        rw [if_pos hupper]
        split at h
        next hlt => rw [if_pos (by omega)]; rfl
        next => cases h
      next => simp at h

theorem readDigits_consumes {radix : Nat} (hradix : radix = 10 ∨ radix = 16) (s : List Char) :
    Consumes s (readDigits radix s).2 := by
  induction s with
  | nil => exact .refl []
  | cons c s ih =>
      unfold readDigits
      cases hvalue : digitValue radix c with
      | none => exact .refl _
      | some v =>
          have hc : isAddressChar c = true := by
            have hhex : (digitValue 16 c).isSome = true := by
              rcases hradix with rfl | rfl
              · exact digitValue_hex (by rw [hvalue]; rfl)
              · rw [hvalue]
                rfl
            simp [isAddressChar, hhex]
          exact (Consumes.cons hc s).trans ih

theorem readNumber_consumes {radix maxDigits bound : Nat} (hradix : radix = 10 ∨ radix = 16)
    {leadingZero : Bool} {s rest : List Char} {n : Nat}
    (h : readNumber radix maxDigits bound leadingZero s = some (n, rest)) : Consumes s rest := by
  unfold readNumber at h
  dsimp only at h
  split at h
  next => cases h
  next =>
    split at h
    next => cases h
    next =>
      split at h
      next => cases h
      next =>
        obtain ⟨-, rfl⟩ := Prod.mk.inj (Option.some.inj h)
        exact readDigits_consumes hradix s

theorem readChar_consumes {c : Char} (hc : isAddressChar c = true) {s rest : List Char}
    (h : readChar c s = some rest) : Consumes s rest := by
  cases s with
  | nil => cases h
  | cons d s =>
      have hread : (if d = c then some s else none) = some rest := h
      by_cases hd : d = c
      · rw [if_pos hd] at hread
        obtain rfl := Option.some.inj hread
        exact hd ▸ Consumes.cons hc s
      · rw [if_neg hd] at hread
        cases hread

theorem readOctets_consumes {k : Nat} {first : Bool} {s rest : List Char} {octets : List Nat}
    (h : readOctets k first s = some (octets, rest)) : Consumes s rest := by
  induction k generalizing first s octets with
  | zero =>
      obtain ⟨-, rfl⟩ := Prod.mk.inj (Option.some.inj h)
      exact .refl _
  | succ k ih =>
      have hsplit : ∃ behind, Consumes s behind ∧ ((readNumber 10 3 256 false behind).bind
          fun read => (readOctets k false read.2).bind fun last =>
            some (read.1 :: last.1, last.2)) = some (octets, rest) := by
        unfold readOctets at h
        cases first with
        | true => exact ⟨s, .refl s, h⟩
        | false =>
            obtain ⟨behind, hbehind, h⟩ := Option.bind_eq_some_iff.mp h
            exact ⟨behind, readChar_consumes (by decide) hbehind, h⟩
      obtain ⟨behind, hseparator, h⟩ := hsplit
      obtain ⟨⟨n, next⟩, hnumber, h⟩ := Option.bind_eq_some_iff.mp h
      obtain ⟨⟨others, last⟩, hothers, h⟩ := Option.bind_eq_some_iff.mp h
      obtain ⟨-, rfl⟩ := Prod.mk.inj (Option.some.inj h)
      exact (hseparator.trans (readNumber_consumes (.inl rfl) hnumber)).trans (ih hothers)

theorem readSeparator_consumes {first : Bool} {s rest : List Char}
    (h : readSeparator first s = some rest) : Consumes s rest := by
  unfold readSeparator at h
  cases first with
  | true =>
      obtain rfl := Option.some.inj h
      exact .refl _
  | false => exact readChar_consumes (by decide) h

theorem readGroups_consumes (limit : Nat) (first : Bool) (s : List Char) :
    Consumes s (readGroups limit first s).2.2 := by
  induction limit generalizing first s with
  | zero => exact .refl s
  | succ limit ih =>
      unfold readGroups
      split
      next octets rest hipv4 =>
        split at hipv4
        next =>
          obtain ⟨behind, hbehind, hread⟩ := Option.bind_eq_some_iff.mp hipv4
          have hall := (readSeparator_consumes hbehind).trans (readOctets_consumes hread)
          split
          next => exact hall
          next => exact .refl s
        next => cases hipv4
      next =>
        split
        next => exact .refl s
        next g rest hgroup =>
          obtain ⟨behind, hbehind, hread⟩ := Option.bind_eq_some_iff.mp hgroup
          exact ((readSeparator_consumes hbehind).trans
            (readNumber_consumes (.inr rfl) hread)).trans (ih false rest)

theorem readIpv6_consumes {s rest : List Char} {groups : List Nat}
    (h : readIpv6 s = some (groups, rest)) : Consumes s rest := by
  unfold readIpv6 at h
  have hhead := readGroups_consumes 8 true s
  generalize readGroups 8 true s = head at h hhead
  obtain ⟨head, headIpv4, s'⟩ := head
  dsimp only at h hhead
  split at h
  next =>
    obtain ⟨-, rfl⟩ := Prod.mk.inj (Option.some.inj h)
    exact hhead
  next =>
    split at h
    next => cases h
    next =>
      obtain ⟨one, hone, h⟩ := Option.bind_eq_some_iff.mp h
      obtain ⟨two, htwo, h⟩ := Option.bind_eq_some_iff.mp h
      have htail := readGroups_consumes (8 - (head.length + 1)) true two
      obtain ⟨-, rfl⟩ := Prod.mk.inj (Option.some.inj h)
      exact ((hhead.trans (readChar_consumes (by decide) hone)).trans
        (readChar_consumes (by decide) htwo)).trans htail

/-- **An address has only hexadecimal digits, dots and colons.** -/
theorem chars_of_parseIpAddr {s : List Char} {ip : IpAddr} (h : parseIpAddr s = some ip) :
    ∀ c ∈ s, isAddressChar c = true := by
  have hwhole : Consumes s [] := by
    unfold parseIpAddr at h
    split at h
    next octets hread => exact readOctets_consumes hread
    next => cases h
    next =>
      split at h
      next groups hread => exact readIpv6_consumes hread
      next => cases h
  obtain ⟨front, rfl, hfront⟩ := hwhole
  rwa [List.append_nil]

end QingzhouSSH.Lib.Net
