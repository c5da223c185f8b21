import Mathlib.Tactic.Lemma
import CallWaiting.Json.Escape
import CallWaiting.Json.Token

namespace CallWaiting

namespace Octets

lemma toBytes_ofBytes (b : ByteArray) : toBytes (ofBytes b) = b := by
  have h : Char.toUInt8 ∘ Char.ofUInt8 = id := by
    funext n
    exact UInt8.toUInt8_toUInt32 n
  simp [toBytes, ofBytes, h]

@[simp] lemma text?_ofText (s : String) : text? (ofText s) = some s := by
  rw [text?, ofText, toBytes_ofBytes]
  exact dif_pos s.isValidUTF8

def InRange (o : Octets) : Prop :=
  ∀ c ∈ o, c.toNat < 256

@[simp] lemma inRange_nil : InRange [] := by simp [InRange]

@[simp] lemma inRange_cons {c : Char} {o : Octets} :
    InRange (c :: o) ↔ c.toNat < 256 ∧ InRange o := by
  simp [InRange]

@[simp] lemma inRange_append {xs ys : Octets} :
    InRange (xs ++ ys) ↔ InRange xs ∧ InRange ys := by
  simp [InRange, or_imp, forall_and]

lemma ofUInt8_toUInt8 {c : Char} (h : c.toNat < 256) : Char.ofUInt8 c.toUInt8 = c := by
  have hc : c.val.toNat < 256 := h
  apply Char.ext
  apply UInt32.toNat_inj.1
  change c.val.toUInt8.toUInt32.toNat = c.val.toNat
  rw [UInt8.toNat_toUInt32, UInt32.toNat_toUInt8, Nat.mod_eq_of_lt hc]

lemma ofBytes_toBytes {o : Octets} (h : o.InRange) : ofBytes o.toBytes = o := by
  have hm : o.map (Char.ofUInt8 ∘ Char.toUInt8) = o.map id :=
    List.map_congr_left fun c hc => ofUInt8_toUInt8 (h c hc)
  simpa [ofBytes, toBytes] using hm

lemma inRange_ofText (s : String) : (ofText s).InRange := by
  intro c hc
  obtain ⟨n, -, rfl⟩ := List.mem_map.1 hc
  change n.toUInt32.toNat < 256
  rw [UInt8.toNat_toUInt32]
  exact n.toNat_lt

end Octets

namespace Json.Escape

lemma decode_unicode {a b c d : Char} {n : Nat} (hn : hex4 a b c d = some n)
    (hl : isLead n = false) (cs : Octets) :
    decode ('\\' :: 'u' :: a :: b :: c :: d :: cs) =
      (scalar? n).bind fun o => (decode cs).map (o ++ ·) := by
  rw [decode.eq_def]
  split
  · simp_all
  · rename_i h
    simp only [List.cons.injEq, true_and] at h
    obtain ⟨rfl, rfl, rfl, rfl, rfl⟩ := h
    simp only [hn, Option.bind_eq_bind, Option.bind_some, hl, Bool.false_eq_true, if_false]
    exact Option.bind_congr fun o _ => (Option.map_eq_bind ..).symm
  · rename_i h
    simp only [List.cons.injEq, true_and] at h
    obtain ⟨rfl, rfl, rfl, rfl, rfl⟩ := h
    simp only [hn, Option.bind_eq_bind, Option.bind_some]
    exact Option.bind_congr fun o _ => (Option.map_eq_bind ..).symm
  · rename_i hu h
    simp only [List.cons.injEq, true_and] at h
    obtain ⟨rfl, rfl⟩ := h
    exact absurd rfl (hu _ _ _ _ _ rfl)
  · rename_i h
    simp only [List.cons.injEq] at h
    obtain ⟨rfl, rfl⟩ := h
    simp_all

lemma hex4_control (n : Nat) (h : n < 32) :
    hex4 '0' '0' (hexDigit (n / 16)) (hexDigit (n % 16)) = some n ∧ scalar? n = some [Char.ofNat n] ∧
      isLead n = false := by
  revert n
  decide

lemma decode_control {c : Char} (h : c.toNat < 32) (cs : Octets) :
    decode ('\\' :: 'u' :: '0' :: '0' :: hexDigit (c.toNat / 16) :: hexDigit (c.toNat % 16) :: cs) =
      (decode cs).map (c :: ·) := by
  obtain ⟨hn, hs, hl⟩ := hex4_control c.toNat h
  rw [decode_unicode hn hl, hs, Option.bind_some, Char.ofNat_toNat]
  rfl

lemma decode_plain {c : Char} (h : c ≠ '\\') (cs : Octets) :
    decode (c :: cs) = (decode cs).map (c :: ·) := by
  rw [decode.eq_def]
  split <;> simp_all

lemma decode_octet (c : Char) (cs : Octets) : decode (octet c ++ cs) = (decode cs).map (c :: ·) := by
  simp only [octet]
  split
  case h_8 h _ _ _ _ _ =>
    split
    · exact decode_control (by assumption) cs
    · exact decode_plain h cs
  all_goals
    rw [Option.map_eq_bind]
    rfl

theorem decode_encode (cs : Octets) : decode (encode cs) = some cs := by
  induction cs with
  | nil => rfl
  | cons c cs ih =>
    rw [encode, List.flatMap_cons, decode_octet]
    change (decode (encode cs)).map _ = _
    rw [ih, Option.map_some]

@[simp] theorem text?_ofText (s : String) : text? (ofText s) = some s := by
  simp [text?, ofText, decode_encode]

end Json.Escape

namespace Json.Token

structure IsBody (body : Octets) : Prop where
  passes : ∀ read rest, run (.text read) (body ++ rest) = run (.text (body.reverse ++ read)) rest
  inRange : body.InRange

lemma isBody_nil : IsBody [] := ⟨fun _ _ => rfl, Octets.inRange_nil⟩

lemma IsBody.append {xs ys : Octets} (hx : IsBody xs) (hy : IsBody ys) : IsBody (xs ++ ys) where
  passes read rest := by
    rw [List.append_assoc, hx.passes, hy.passes, List.reverse_append, List.append_assoc]
  inRange := Octets.inRange_append.2 ⟨hx.inRange, hy.inRange⟩

lemma run_some {m : Mode} (m' : Mode) {c : Char} (h : step m c = some (m', [])) (cs : Octets) :
    run m (c :: cs) = run m' cs := by
  simp [run, h]

lemma isBody_plain {c : Char} (hn : c.toNat < 256) (hc : 32 ≤ c.toNat) (hq : c ≠ '"')
    (hb : c ≠ '\\') : IsBody [c] where
  passes read rest := by
    have hv : ¬ c.val < 0x20 := by
      simpa [UInt32.lt_iff_toNat_lt] using hc
    exact run_some _ (by simp [step, hq, hb, hv]) rest
  inRange := by simpa using hn

lemma hexDigit_octet (n : Nat) (h : n < 16) :
    isHexDigit (Escape.hexDigit n) = true ∧ (Escape.hexDigit n).toNat < 256 := by
  revert n
  decide

lemma isBody_control {c : Char} (h : c.toNat < 32) :
    IsBody ['\\', 'u', '0', '0', Escape.hexDigit (c.toNat / 16), Escape.hexDigit (c.toNat % 16)] := by
  obtain ⟨hh, hho⟩ := hexDigit_octet (c.toNat / 16) (by omega)
  obtain ⟨hl, hlo⟩ := hexDigit_octet (c.toNat % 16) (by omega)
  constructor
  · intro read rest
    simp [run, step, hh, hl, show isHexDigit '0' = true from rfl]
  · simp [hho, hlo]

lemma isBody_octet {c : Char} (hc : c.toNat < 256) : IsBody (Escape.octet c) := by
  simp only [Escape.octet]
  split
  case h_8 hq hb _ _ _ _ _ =>
    split
    · exact isBody_control (by assumption)
    · exact isBody_plain hc (by omega) hq hb
  all_goals
    exact ⟨fun read rest => (run_some _ rfl _).trans (run_some _ rfl _), by simp⟩

lemma isBody_encode {cs : Octets} (h : cs.InRange) : IsBody (Escape.encode cs) := by
  induction cs with
  | nil => exact isBody_nil
  | cons c cs ih =>
    rw [Escape.encode, List.flatMap_cons]
    exact (isBody_octet (h c List.mem_cons_self)).append
      (ih fun c' h' => h c' (List.mem_cons_of_mem c h'))

lemma isBody_ofText (s : String) : IsBody (Escape.ofText s) :=
  isBody_encode (Octets.inRange_ofText s)

end Json.Token

end CallWaiting
