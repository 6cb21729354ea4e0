/-
  TftpUpload/Proofs/Net/HostPort.lean
  ===================================
  **Every way of writing a host and a port, and every way of failing to.**

  `Spelt` has one rule for each way of writing an address, and `Misspelt` one
  for each fault; neither mentions how a text is taken apart.  Every text comes
  under one of the nine rules (`spelt_or_misspelt`), and splitting answers as
  the rule says.  Brackets are looked at first: within them colons are part of
  the host.  Without them a single colon is taken for the one in front of a port,
  whatever follows it, while two or more make the text a host.
-/
import TftpUpload.Net.HostPort
import TftpUpload.Proofs.Text.Number

namespace TftpUpload.Net

open Text

variable {default : UInt16} {input host : String} {port : UInt16} {e : HostPortError}

/-! ### Addresses as they are written -/

def Bracketed (text : String) : Prop := text.toList.head? = some '['

inductive Spelt (default : UInt16) : String → String → UInt16 → Prop where
  | name {host : String} (plain : ¬ Bracketed host) (whole : ':' ∉ host.toList) :
      Spelt default host host default
  | nameAndPort {host digits : String} {port : UInt16} (plain : ¬ Bracketed host)
      (whole : ':' ∉ host.toList) (spelt : Spells digits.toList port.toNat) :
      Spelt default (host ++ ":" ++ digits) host port
  | bracketed {host : String} (closed : ']' ∉ host.toList) :
      Spelt default ("[" ++ host ++ "]") host default
  | bracketedAndPort {host digits : String} {port : UInt16} (closed : ']' ∉ host.toList)
      (spelt : Spells digits.toList port.toNat) :
      Spelt default ("[" ++ host ++ "]:" ++ digits) host port
  | colons {host : String} (plain : ¬ Bracketed host) (several : 2 ≤ host.toList.count ':') :
      Spelt default host host default

/-- The text is no address, and the error says why. -/
inductive Misspelt : String → HostPortError → Prop where
  | unclosed {rest : String} (unclosed : ']' ∉ rest.toList) :
      Misspelt ("[" ++ rest) (.missingBracket ("[" ++ rest))
  | trailing {host after : String} (closed : ']' ∉ host.toList) (nonempty : after ≠ "")
      (colon : after.toList.head? ≠ some ':') :
      Misspelt ("[" ++ host ++ "]" ++ after) (.unexpected after ("[" ++ host ++ "]" ++ after))
  | bracketedAndPort {host port : String} {reason : NumberError} (closed : ']' ∉ host.toList)
      (misspelt : Misspells 65535 port.toList reason) :
      Misspelt ("[" ++ host ++ "]:" ++ port)
        (.invalidPort port ("[" ++ host ++ "]:" ++ port) reason)
  | nameAndPort {host port : String} {reason : NumberError} (plain : ¬ Bracketed host)
      (whole : ':' ∉ host.toList) (single : ':' ∉ port.toList)
      (misspelt : Misspells 65535 port.toList reason) :
      Misspelt (host ++ ":" ++ port) (.invalidPort port (host ++ ":" ++ port) reason)

/-! ### Taking a text apart

A text is cut at its first bracket or colon, and then what is behind it is looked at.  Which of the
cases it comes under is decided by what there is of brackets and colons, before the port is read. -/

theorem cutAt?_append {c : Char} {before : List Char} (h : c ∉ before) (after : List Char) :
    cutAt? c (before ++ c :: after) = some (before, after) := by
  induction before with
  | nil => simp [cutAt?]
  | cons x before ih =>
    rw [List.mem_cons, not_or] at h
    rw [List.cons_append, cutAt?, if_neg (Ne.symm h.1), ih h.2]
    rfl

theorem cutAt?_eq_none {c : Char} {text : List Char} (h : c ∉ text) : cutAt? c text = none := by
  induction text with
  | nil => rfl
  | cons x text ih =>
    rw [List.mem_cons, not_or] at h
    rw [cutAt?, if_neg (Ne.symm h.1), ih h.2]
    rfl

section
variable {text rest name after : List Char}

theorem splitTexts_unclosed (h : ']' ∉ rest) :
    splitTexts ('[' :: rest) = .error (.missingBracket (String.ofList ('[' :: rest))) := by
  rw [splitTexts, cutAt?_eq_none h]

theorem splitTexts_closed (h : ']' ∉ name) :
    splitTexts ('[' :: (name ++ [']'])) = .ok (name, none) := by
  rw [splitTexts, cutAt?_append h]

theorem splitTexts_closed_colon (h : ']' ∉ name) (port : List Char) :
    splitTexts ('[' :: (name ++ ']' :: ':' :: port)) = .ok (name, some port) := by
  rw [splitTexts, cutAt?_append h]
  rfl

theorem splitTexts_trailing (h : ']' ∉ name) (hne : after ≠ []) (hcolon : after.head? ≠ some ':') :
    splitTexts ('[' :: (name ++ ']' :: after)) =
      .error (.unexpected (String.ofList after)
        (String.ofList ('[' :: (name ++ ']' :: after)))) := by
  rw [splitTexts, cutAt?_append h]
  cases after with
  | nil => exact absurd rfl hne
  | cons c after =>
    have hc : c ≠ ':' := by simpa using hcolon
    split <;> simp_all

theorem splitTexts_plain (h : text.head? ≠ some '[') (hcount : text.count ':' ≠ 1) :
    splitTexts text = .ok (text, none) := by
  rw [splitTexts, if_neg hcount]
  rintro rest rfl
  exact h rfl

theorem splitTexts_colon (h : name.head? ≠ some '[') (hname : ':' ∉ name) (hafter : ':' ∉ after) :
    splitTexts (name ++ ':' :: after) = .ok (name, some after) := by
  have hcount : (name ++ ':' :: after).count ':' = 1 := by
    simp [List.count_eq_zero.2 hname, List.count_eq_zero.2 hafter]
  rw [splitTexts, if_pos hcount, cutAt?_append hname]
  intro rest hrest
  cases name with
  | nil => simp at hrest
  | cons c name =>
    rw [List.cons_append, List.cons.injEq] at hrest
    exact h (congrArg some hrest.1)

end

/-! ### Splitting

Each rule is read forwards: the text comes apart as the rule says, and then the port is read or
missing. -/

theorem splitHostPort_error (h : splitTexts input.toList = .error e) :
    splitHostPort input default = .error e := by
  rw [splitHostPort, h]

theorem splitHostPort_default (h : splitTexts input.toList = .ok (host.toList, none)) :
    splitHostPort input default = .ok (host, default) := by
  rw [splitHostPort, h]
  simp [readPortText]

section
variable {digits : String} (h : splitTexts input.toList = .ok (host.toList, some digits.toList))
include h

theorem splitHostPort_port (spelt : Spells digits.toList port.toNat) :
    splitHostPort input default = .ok (host, port) := by
  have hread : readNatural portLimit digits.toList = .ok port.toNat :=
    readNatural_of_spells spelt (Nat.le_of_lt_succ port.toNat_lt)
  simp [splitHostPort, h, readPortText, hread]

theorem splitHostPort_invalid {reason : NumberError}
    (misspelt : Misspells 65535 digits.toList reason) :
    splitHostPort input default = .error (.invalidPort digits input reason) := by
  have hread : readNatural portLimit digits.toList = .error reason :=
    readNatural_of_misspells misspelt
  simp [splitHostPort, h, readPortText, hread]

end

theorem colon_notMem_of_spells {text : List Char} {n : Nat} (h : Spells text n) : ':' ∉ text := by
  intro hcolon
  rcases h.mem_cases hcolon with hsign | hdigit
  · exact absurd hsign (by decide)
  · exact absurd hdigit (by decide)

/-- What is spelt is split into its host and its port. -/
theorem splitHostPort_of_spelt (h : Spelt default input host port) :
    splitHostPort input default = .ok (host, port) := by
  cases h with
  | name plain whole =>
    have hcount : input.toList.count ':' ≠ 1 := by simp [List.count_eq_zero.2 whole]
    exact splitHostPort_default (splitTexts_plain plain hcount)
  | @nameAndPort _ digits _ plain whole spelt =>
    refine splitHostPort_port ?_ spelt
    simpa using splitTexts_colon plain whole (colon_notMem_of_spells spelt)
  | bracketed closed => exact splitHostPort_default (by simpa using splitTexts_closed closed)
  | @bracketedAndPort _ digits _ closed spelt =>
    refine splitHostPort_port ?_ spelt
    simpa using splitTexts_closed_colon closed digits.toList
  | colons plain several =>
    have hcount : input.toList.count ':' ≠ 1 := Nat.ne_of_gt several
    exact splitHostPort_default (splitTexts_plain plain hcount)

theorem splitHostPort_of_misspelt (h : Misspelt input e) :
    splitHostPort input default = .error e := by
  cases h with
  | unclosed unclosed =>
    refine splitHostPort_error ?_
    simpa using splitTexts_unclosed unclosed
  | trailing closed nonempty colon =>
    refine splitHostPort_error ?_
    simpa [String.append_assoc] using splitTexts_trailing closed (by simpa using nonempty) colon
  | @bracketedAndPort host port _ closed misspelt =>
    have hsplit : splitTexts ("[" ++ host ++ "]:" ++ port).toList =
        .ok (host.toList, some port.toList) := by
      simpa using splitTexts_closed_colon closed port.toList
    exact splitHostPort_invalid hsplit misspelt
  | @nameAndPort host port _ plain whole single misspelt =>
    have hsplit : splitTexts (host ++ ":" ++ port).toList =
        .ok (host.toList, some port.toList) := by
      simpa using splitTexts_colon plain whole single
    exact splitHostPort_invalid hsplit misspelt

/-! ### Every text -/

theorem exists_of_head? {c : Char} {text : String} (h : text.toList.head? = some c) :
    ∃ rest, text = String.singleton c ++ rest := by
  obtain ⟨rest, htext⟩ := List.head?_eq_some_iff.1 h
  refine ⟨String.ofList rest, ?_⟩
  rw [← String.toList_inj]
  simpa using htext

theorem exists_of_mem {c : Char} {text : String} (h : c ∈ text.toList) :
    ∃ before after, text = before ++ String.singleton c ++ after ∧ c ∉ before.toList := by
  obtain ⟨before, after, htext, hbefore⟩ := List.eq_append_cons_of_mem h
  refine ⟨String.ofList before, String.ofList after, ?_, by simpa using hbefore⟩
  rw [← String.toList_inj]
  simpa using htext

theorem port_or_misspells (text : String) :
    (∃ port : UInt16, Spells text.toList port.toNat) ∨
      ∃ reason, Misspells 65535 text.toList reason := by
  rcases spells_or_misspells 65535 text.toList with ⟨n, hn, hspells⟩ | hfault
  · refine .inl ⟨UInt16.ofNat n, ?_⟩
    rwa [UInt16.toNat_ofNat_of_lt' (Nat.lt_succ_of_le hn)]
  · exact .inr hfault

theorem spelt_or_misspelt_of_bracketed (default : UInt16) (rest : String) :
    (∃ host port, Spelt default ("[" ++ rest) host port) ∨ ∃ e, Misspelt ("[" ++ rest) e := by
  by_cases hclosed : ']' ∈ rest.toList
  · obtain ⟨host, after, rfl, hhost⟩ := exists_of_mem hclosed
    rw [← String.append_assoc, ← String.append_assoc]
    by_cases hempty : after = ""
    · subst hempty
      rw [String.append_empty]
      exact .inl ⟨host, default, .bracketed hhost⟩
    · by_cases hcolon : after.toList.head? = some ':'
      · obtain ⟨text, rfl⟩ := exists_of_head? hcolon
        have hjoin : "[" ++ host ++ String.singleton ']' ++ (String.singleton ':' ++ text) =
            "[" ++ host ++ "]:" ++ text := by
          rw [← String.toList_inj]
          simp
        rw [hjoin]
        rcases port_or_misspells text with ⟨port, hport⟩ | ⟨reason, hreason⟩
        · exact .inl ⟨host, port, .bracketedAndPort hhost hport⟩
        · exact .inr ⟨_, .bracketedAndPort hhost hreason⟩
      · exact .inr ⟨_, .trailing hhost hempty hcolon⟩
  · exact .inr ⟨_, .unclosed hclosed⟩

/-- A single colon is the one in front of a port. -/
theorem spelt_or_misspelt_of_colon (default : UInt16) (plain : ¬ Bracketed input)
    (single : input.toList.count ':' = 1) :
    (∃ host port, Spelt default input host port) ∨ ∃ e, Misspelt input e := by
  have hmem : ':' ∈ input.toList := List.one_le_count_iff.1 (Nat.le_of_eq single.symm)
  obtain ⟨host, text, rfl, hhost⟩ := exists_of_mem hmem
  have htext : ':' ∉ text.toList := by
    simpa [List.count_eq_zero.2 hhost, List.count_eq_zero] using single
  have hplain : ¬ Bracketed host := by
    intro hbracket
    obtain ⟨rest, rfl⟩ := exists_of_head? hbracket
    exact plain (by simp [Bracketed])
  rcases port_or_misspells text with ⟨port, hport⟩ | ⟨reason, hreason⟩
  · exact .inl ⟨host, port, .nameAndPort hplain hhost hport⟩
  · exact .inr ⟨_, .nameAndPort hplain hhost htext hreason⟩

theorem spelt_or_misspelt (default : UInt16) (input : String) :
    (∃ host port, Spelt default input host port) ∨ ∃ e, Misspelt input e := by
  by_cases hbracket : Bracketed input
  · obtain ⟨rest, rfl⟩ := exists_of_head? hbracket
    exact spelt_or_misspelt_of_bracketed default rest
  · rcases Nat.lt_trichotomy (input.toList.count ':') 1 with hnone | hsingle | hseveral
    · have hwhole : ':' ∉ input.toList := List.count_eq_zero.1 (Nat.lt_one_iff.1 hnone)
      exact .inl ⟨input, default, .name hbracket hwhole⟩
    · exact spelt_or_misspelt_of_colon default hbracket hsingle
    · exact .inl ⟨input, default, .colons hbracket hseveral⟩

/-- **Addresses are split, and nothing else is.**  The host and the port come out as they are
written, with any default and any text; what is no address is refused for its fault. -/
theorem splits_exactly_addresses (input : String) (default : UInt16) :
    (∀ host port, splitHostPort input default = .ok (host, port) ↔
      Spelt default input host port) ∧
    ∀ e, splitHostPort input default = .error e ↔ Misspelt input e := by
  have htotal : (∃ split : String × UInt16, Spelt default input split.1 split.2) ∨
      ∃ e, Misspelt input e := by
    rcases spelt_or_misspelt default input with ⟨host, port, hspelt⟩ | hmisspelt
    · exact .inl ⟨(host, port), hspelt⟩
    · exact .inr hmisspelt
  obtain ⟨hok, herror⟩ := answers_iff (fun _ hspelt => splitHostPort_of_spelt hspelt)
    (fun _ hmisspelt => splitHostPort_of_misspelt hmisspelt) htotal
  exact ⟨fun host port => hok (host, port), herror⟩

example : splitHostPort "[fe80::1]:+0069" 6969 = .ok ("fe80::1", 69) := by decide +kernel

end TftpUpload.Net
