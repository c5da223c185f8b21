import CallWaiting.Proofs.Json.Scanning

namespace CallWaiting.Json

mutual

def spell : Json → List Token
  | null => [.null]
  | bool b => [.bool b]
  | number digits => [.number digits]
  | text body => [.text body]
  | array [] => [.openBracket, .closeBracket]
  | array (j :: js) => .openBracket :: spell j ++ spellItems js ++ [.closeBracket]
  | object [] => [.openBrace, .closeBrace]
  | object ((k, j) :: ms) =>
    .openBrace :: .text k :: .colon :: spell j ++ spellMembers ms ++ [.closeBrace]

def spellItems : List Json → List Token
  | [] => []
  | j :: js => .comma :: spell j ++ spellItems js

def spellMembers : List (Octets × Json) → List Token
  | [] => []
  | (k, j) :: ms => .comma :: .text k :: .colon :: spell j ++ spellMembers ms

end

mutual

def IsPrintable : Json → Prop
  | number digits => ∃ i : Int, digits = Numeral.ofInt i
  | text body => Token.IsBody body
  | array items => ArePrintable items
  | object members => HasPrintable members
  | null | bool _ => True

def ArePrintable : List Json → Prop
  | [] => True
  | j :: js => IsPrintable j ∧ ArePrintable js

def HasPrintable : List (Octets × Json) → Prop
  | [] => True
  | (k, j) :: ms => Token.IsBody k ∧ IsPrintable j ∧ HasPrintable ms

end

lemma hasPrintable_iff {ms : List (Octets × Json)} :
    HasPrintable ms ↔ ∀ m ∈ ms, Token.IsBody m.1 ∧ IsPrintable m.2 := by
  induction ms with
  | nil => simp [HasPrintable]
  | cons m ms ih => simp [HasPrintable, ih, and_assoc]

namespace Token

mutual

theorem run_indented (level : Nat) (j : Json) (h : j.IsPrintable) (rest : Octets)
    (hr : Ends rest) :
    run .between (indented level j ++ rest) = (run .between rest).map (spell j ++ ·) := by
  match j, h with
  | .null, _ => exact run_wordOf rfl rfl (by decide) rfl hr
  | .bool true, _ => exact run_wordOf rfl rfl (by decide) rfl hr
  | .bool false, _ => exact run_wordOf rfl rfl (by decide) rfl hr
  | .number _, ⟨i, rfl⟩ => exact run_ofInt i hr
  | .text body, h => exact run_quoted h rest
  | .array [], _ =>
    simp only [indented, List.cons_append, List.nil_append]
    rw [run_step .between [.openBracket] rfl, run_step .between [.closeBracket] rfl]
    simp [spell, Function.comp_def]
  | .array (j :: js), ⟨hj, hjs⟩ =>
    simp only [indented, List.cons_append, List.append_assoc, List.nil_append]
    rw [run_step .between [.openBracket] rfl, run_newline, run_indented (level + 1) j hj,
      run_indentedItems (level + 1) js hjs, run_newline, run_step .between [.closeBracket] rfl]
    · simp [spell, Function.comp_def]
    · exact ends_newline _ _
    · cases js with
      | nil => exact ends_newline _ _
      | cons j js => exact ends_comma _
  | .object [], _ =>
    simp only [indented, List.cons_append, List.nil_append]
    rw [run_step .between [.openBrace] rfl, run_step .between [.closeBrace] rfl]
    simp [spell, Function.comp_def]
  | .object ((k, j) :: ms), ⟨hk, hj, hms⟩ =>
    simp only [indented, List.cons_append, List.append_assoc, List.nil_append]
    rw [run_step .between [.openBrace] rfl, run_newline, run_quoted hk,
      run_step .between [.colon] rfl, run_some .between rfl, run_indented (level + 1) j hj,
      run_indentedMembers (level + 1) ms hms, run_newline, run_step .between [.closeBrace] rfl]
    · simp [spell, Function.comp_def]
    · exact ends_newline _ _
    · cases ms with
      | nil => exact ends_newline _ _
      | cons m ms => exact ends_comma _

theorem run_indentedItems (level : Nat) (js : List Json) (h : ArePrintable js) (rest : Octets)
    (hr : Ends rest) :
    run .between (indentedItems level js ++ rest) =
      (run .between rest).map (spellItems js ++ ·) := by
  match js, h with
  | [], _ => simp [indentedItems, spellItems]
  | j :: js, ⟨hj, hjs⟩ =>
    simp only [indentedItems, List.cons_append, List.append_assoc]
    rw [run_step .between [.comma] rfl, run_newline, run_indented level j hj,
      run_indentedItems level js hjs rest hr]
    · simp [spellItems, Function.comp_def]
    · cases js with
      | nil => exact hr
      | cons j js => exact ends_comma _

theorem run_indentedMembers (level : Nat) (ms : List (Octets × Json)) (h : HasPrintable ms)
    (rest : Octets) (hr : Ends rest) :
    run .between (indentedMembers level ms ++ rest) =
      (run .between rest).map (spellMembers ms ++ ·) := by
  match ms, h with
  | [], _ => simp [indentedMembers, spellMembers]
  | (k, j) :: ms, ⟨hk, hj, hms⟩ =>
    simp only [indentedMembers, List.cons_append, List.append_assoc]
    rw [run_step .between [.comma] rfl, run_newline, run_quoted hk, run_step .between [.colon] rfl,
      run_some .between rfl, run_indented level j hj, run_indentedMembers level ms hms rest hr]
    · simp [spellMembers, Function.comp_def]
    · cases ms with
      | nil => exact hr
      | cons m ms => exact ends_comma _

end

theorem scan_pretty (j : Json) (h : j.IsPrintable) : scan (pretty j) = some (spell j) := by
  have hj := run_indented 0 j h [] ends_nil
  rw [List.append_nil] at hj
  rw [scan, pretty, hj]
  simp [run, last]

end Token

@[simp] lemma inRange_newline (level : Nat) : Octets.InRange (newline level) := by
  rw [newline, Octets.inRange_cons]
  refine ⟨by decide, fun c hc => ?_⟩
  rw [List.eq_of_mem_replicate hc]
  decide

lemma inRange_quoted {body : Octets} (h : Token.IsBody body) : Octets.InRange (quoted body) := by
  simpa [quoted] using h.inRange

mutual

theorem inRange_indented (level : Nat) (j : Json) (h : j.IsPrintable) :
    Octets.InRange (indented level j) := by
  match j, h with
  | .null, _ | .bool true, _ | .bool false, _ | .array [], _ | .object [], _ =>
    simp [indented, word]
  | .number _, ⟨i, rfl⟩ => exact (Token.isBody_ofInt i).inRange
  | .text body, h => exact inRange_quoted h
  | .array (j :: js), ⟨hj, hjs⟩ =>
    simp [indented, inRange_indented (level + 1) j hj, inRange_indentedItems (level + 1) js hjs]
  | .object ((k, j) :: ms), ⟨hk, hj, hms⟩ =>
    simp [indented, inRange_quoted hk, inRange_indented (level + 1) j hj,
      inRange_indentedMembers (level + 1) ms hms]

theorem inRange_indentedItems (level : Nat) (js : List Json) (h : ArePrintable js) :
    Octets.InRange (indentedItems level js) := by
  match js, h with
  | [], _ => simp [indentedItems]
  | j :: js, ⟨hj, hjs⟩ =>
    simp [indentedItems, inRange_indented level j hj, inRange_indentedItems level js hjs]

theorem inRange_indentedMembers (level : Nat) (ms : List (Octets × Json)) (h : HasPrintable ms) :
    Octets.InRange (indentedMembers level ms) := by
  match ms, h with
  | [], _ => simp [indentedMembers]
  | (k, j) :: ms, ⟨hk, hj, hms⟩ =>
    simp [indentedMembers, inRange_quoted hk, inRange_indented level j hj,
      inRange_indentedMembers level ms hms]

end

namespace Reader

mutual

theorem run_spell (j : Json) (e : Expectation) (he : e = .value ∨ e = .valueOrEnd)
    (fs : List Frame) (ts : List Token) :
    run ⟨fs, e⟩ (spell j ++ ts) = run (accept j fs) ts := by
  match j with
  | .null | .bool _ | .number _ | .text _ => rcases he with rfl | rfl <;> rfl
  | .array [] => rcases he with rfl | rfl <;> rfl
  | .array (j :: js) =>
    have ho : run ⟨fs, e⟩ (spell (.array (j :: js)) ++ ts) =
        run ⟨.array [] :: fs, .valueOrEnd⟩ (spell j ++ (spellItems js ++ .closeBracket :: ts)) := by
      rcases he with rfl | rfl <;> simp [spell, run, step, value]
    rw [ho, run_spell j _ (.inr rfl), accept, run_spellItems js]
    simp [run, step]
  | .object [] => rcases he with rfl | rfl <;> rfl
  | .object ((k, j) :: ms) =>
    have ho : run ⟨fs, e⟩ (spell (.object ((k, j) :: ms)) ++ ts) =
        run ⟨.object [] k :: fs, .value⟩ (spell j ++ (spellMembers ms ++ .closeBrace :: ts)) := by
      rcases he with rfl | rfl <;> simp [spell, run, step, value]
    obtain ⟨k', hk⟩ := run_spellMembers ms [(k, j)] k fs (.closeBrace :: ts)
    rw [ho, run_spell j _ (.inl rfl), accept, hk]
    simp [run, step]

theorem run_spellItems (js items : List Json) (fs : List Frame) (ts : List Token) :
    run ⟨.array items :: fs, .more⟩ (spellItems js ++ ts) =
      run ⟨.array (js.reverse ++ items) :: fs, .more⟩ ts := by
  match js with
  | [] => rfl
  | j :: js =>
    have hc : run ⟨.array items :: fs, .more⟩ (spellItems (j :: js) ++ ts) =
        run ⟨.array items :: fs, .value⟩ (spell j ++ (spellItems js ++ ts)) := by
      simp [spellItems, run, step]
    rw [hc, run_spell j _ (.inl rfl), accept, run_spellItems js]
    simp

theorem run_spellMembers (ms members : List (Octets × Json)) (key : Octets) (fs : List Frame)
    (ts : List Token) :
    ∃ key', run ⟨.object members key :: fs, .more⟩ (spellMembers ms ++ ts) =
      run ⟨.object (ms.reverse ++ members) key' :: fs, .more⟩ ts := by
  match ms with
  | [] => exact ⟨key, rfl⟩
  | (k, j) :: ms =>
    have hc : run ⟨.object members key :: fs, .more⟩ (spellMembers ((k, j) :: ms) ++ ts) =
        run ⟨.object members k :: fs, .value⟩ (spell j ++ (spellMembers ms ++ ts)) := by
      simp [spellMembers, run, step]
    obtain ⟨key', hk⟩ := run_spellMembers ms ((k, j) :: members) k fs ts
    refine ⟨key', ?_⟩
    rw [hc, run_spell j _ (.inl rfl), accept, hk]
    simp

end

end Reader

theorem ofTokens?_spell (j : Json) : ofTokens? (spell j) = some j := by
  have h := Reader.run_spell j .value (.inl rfl) [] []
  rw [List.append_nil] at h
  rw [ofTokens?, Reader.initial, h]
  rfl

theorem read?_pretty (j : Json) (h : j.IsPrintable) : read? (pretty j) = some j := by
  rw [read?, Token.scan_pretty j h]
  exact ofTokens?_spell j

theorem read?_toBytes (j : Json) (h : j.IsPrintable) :
    read? (.ofBytes (pretty j).toBytes) = some j := by
  have hr : Octets.InRange (pretty j) := inRange_indented 0 j h
  rw [Octets.ofBytes_toBytes hr, read?_pretty j h]

end CallWaiting.Json
