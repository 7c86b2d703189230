import CompareVI.Framework.SharedFile
import CompareVI.Ledger.Redaction
import CompareVI.Ledger.StableText

/-!
# Appending to the decision ledger

`appendDecisionLedgerEntry` redacts a decision, reads the ledger, adds one entry to it and
writes the whole file. Several runs may do so on one path at a time, and nothing keeps them
apart.

After any run of their steps the ledger should hold every entry whose append returned, behind
the entries that were there before, numbered in order (`LedgerKept`). `ledgerKept_iff` says
that it does exactly if no run writes a ledger that another one has rewritten since it was
read. The hash and the collation of keys are parameters.
-/

open Framework

namespace CompareVI.Ledger

/-! ### The ledger -/

/-- An entry of the ledger, its decision as it is written. -/
structure LedgerEntry where
  sequence : ℕ
  appendedAt : String
  source : String
  decisionDigest : String
  decision : Json
  fingerprint : Option String

structure DecisionLedger where
  generatedAt : Option String
  entryCount : ℕ
  entries : List LedgerEntry

def DecisionLedger.empty : DecisionLedger := ⟨none, 0, []⟩

/-- What the runs read: `readLedger`. -/
def readLedger (file : Option DecisionLedger) : DecisionLedger := file.getD .empty

structure AppendInput where
  decision : Json
  source : Option String
  /-- `now.toISOString()`. -/
  now : String

def ledgerEntry (env : DigestEnv) (i : AppendInput) (ledger : DecisionLedger) : LedgerEntry :=
  let redactedDecision := redacted i.decision
  { sequence := ledger.entries.length + 1
    appendedAt := i.now
    source := (optionText i.source).getD "manual"
    decisionDigest := computeDigest env redactedDecision
    decision := redactedDecision.tree
    fingerprint := Json.optionText
      (((redactedDecision.get? "event").bind (JsValue.get? "fingerprint")).map JsValue.tree) }

def appendEntry (env : DigestEnv) (i : AppendInput) (ledger : DecisionLedger) : DecisionLedger where
  generatedAt := some i.now
  entryCount := ledger.entries.length + 1
  entries := ledger.entries ++ [ledgerEntry env i ledger]

/-- `appendDecisionLedgerEntry`, from what was read to what is written. -/
def appendDecisionLedgerEntry (env : DigestEnv) (inputs : ℕ → AppendInput) (run : ℕ)
    (file : Option DecisionLedger) : Option DecisionLedger :=
  some (appendEntry env (inputs run) (readLedger file))

/-! ### Runs on one path -/

abbrev LedgerSystem : Type := SharedFile (Option DecisionLedger)

def ledgerStep (env : DigestEnv) (inputs : ℕ → AppendInput) :
    LedgerSystem → FileStep → Option LedgerSystem :=
  SharedFile.step (appendDecisionLedgerEntry env inputs)

def returned (env : DigestEnv) (inputs : ℕ → AppendInput) (s : LedgerSystem) : List LedgerEntry :=
  s.written.map fun w => ledgerEntry env (inputs w.1) (readLedger w.2)

/-- The entries are numbered in order, and counted. -/
structure DecisionLedger.Numbered (ledger : DecisionLedger) : Prop where
  sequence : ledger.entries.map (·.sequence) = List.range' 1 ledger.entries.length
  count : ledger.entryCount = ledger.entries.length

/-- What the ledger should be after any steps of the runs, from the file that was there. -/
structure LedgerKept (env : DigestEnv) (inputs : ℕ → AppendInput) (file : Option DecisionLedger)
    (s : LedgerSystem) : Prop where
  /-- Every entry whose append returned is there, besides those that were there before. -/
  contains : ((readLedger file).entries ++ returned env inputs s).Subperm
    (readLedger s.content).entries
  /-- The earlier entries are unchanged and in order. -/
  earlier : (readLedger file).entries <+: (readLedger s.content).entries
  numbered : (readLedger s.content).Numbered

section Kept

variable {env : DigestEnv} {inputs : ℕ → AppendInput} {file : Option DecisionLedger}
  {es : List FileStep} {s t : LedgerSystem}

theorem DecisionLedger.Numbered.append {ledger : DecisionLedger} (h : ledger.Numbered)
    (i : AppendInput) : (appendEntry env i ledger).Numbered where
  sequence := by
    have hsequence : (ledgerEntry env i ledger).sequence = ledger.entries.length + 1 := rfl
    have hlength : (appendEntry env i ledger).entries.length = ledger.entries.length + 1 :=
      List.length_append
    rw [hlength, List.range'_concat, ← h.sequence, Nat.one_mul, Nat.add_comm 1, ← hsequence]
    exact List.map_append
  count := by
    have hlength : (appendEntry env i ledger).entries.length = ledger.entries.length + 1 :=
      List.length_append
    exact hlength.symm

def fileLength (file : Option DecisionLedger) : ℕ := (readLedger file).entries.length

theorem fileLength_append (run : ℕ) (file : Option DecisionLedger) :
    fileLength (appendDecisionLedgerEntry env inputs run file) = fileLength file + 1 :=
  List.length_append

theorem kept_of_fresh (hnumbered : (readLedger file).Numbered)
    (hfresh : Guarded (ledgerStep env inputs) SharedFile.Fresh (SharedFile.start file) es)
    (hrun : run (ledgerStep env inputs) (SharedFile.start file) es = some t) :
    (readLedger t.content).entries = (readLedger file).entries ++ returned env inputs t ∧
      (readLedger t.content).Numbered := by
  have hinv : t.Copied ∧
      (readLedger t.content).entries = (readLedger file).entries ++ returned env inputs t ∧
        (readLedger t.content).Numbered := by
    refine run_invariant (I := fun s : LedgerSystem => s.Copied ∧
      (readLedger s.content).entries = (readLedger file).entries ++ returned env inputs s ∧
        (readLedger s.content).Numbered) ?_
      ⟨SharedFile.copied_start file, (List.append_nil _).symm, hnumbered⟩ hfresh hrun
    rintro s e u ⟨hcopied, hentries, hnumbers⟩ hG hstep
    refine ⟨hcopied.step hstep, ?_⟩
    rcases SharedFile.step_cases hstep with ⟨run, -, rfl⟩ | ⟨run, copy, rfl, hcopy, rfl⟩
    · exact ⟨hentries, hnumbers⟩
    · -- the copy is the content, so the entry goes behind what is there
      have hlast := hcopied.last run copy hcopy (hG copy hcopy)
      rw [hlast]
      refine ⟨?_, hnumbers.append (inputs run)⟩
      unfold returned at hentries ⊢
      rw [List.map_append, ← List.append_assoc, ← hentries]
      rfl
  exact hinv.2

/-- **The decision ledger.** Nothing that was appended is lost exactly if no run writes a
ledger that was rewritten since it was read. -/
theorem ledgerKept_iff (hnumbered : (readLedger file).Numbered)
    (hrun : run (ledgerStep env inputs) (SharedFile.start file) es = some t) :
    LedgerKept env inputs file t ↔
      Guarded (ledgerStep env inputs) SharedFile.Fresh (SharedFile.start file) es := by
  have hbounded := SharedFile.bounded_of_run fileLength_append hrun
  constructor
  · intro hkept
    refine (SharedFile.size_eq_iff_fresh fileLength_append hrun).mp
      (Nat.le_antisymm hbounded.content ?_)
    have hlength := hkept.contains.length_le
    rwa [List.length_append, returned, List.length_map, hbounded.copied.count] at hlength
  · intro hfresh
    obtain ⟨hentries, hnumbers⟩ := kept_of_fresh hnumbered hfresh hrun
    refine ⟨?_, ?_, hnumbers⟩
    · rw [hentries]
    · rw [hentries]
      exact List.prefix_append _ _

end Kept

/-! ### Two appends -/

def plainDigest : DigestEnv := ⟨fun _ => "", .ofKey fun _ => ()⟩

def twoAppends (run : ℕ) : AppendInput where
  decision := .obj []
  source := none
  now := if run = 0 then "2026-01-01T00:00:00.000Z" else "2026-01-01T00:00:01.000Z"

/-- Both runs read before either writes: the first entry is lost. -/
theorem not_ledgerKept_overlap :
    ∃ t, run (ledgerStep plainDigest twoAppends) (SharedFile.start none)
        [.read 0, .read 1, .write 0, .write 1] = some t ∧
      ¬ LedgerKept plainDigest twoAppends none t := by
  refine ⟨_, rfl, fun hkept => ?_⟩
  exact absurd hkept.contains.length_le (by decide)

/-- One append after the other keeps both entries. -/
theorem ledgerKept_sequential :
    ∃ t, run (ledgerStep plainDigest twoAppends) (SharedFile.start none)
        [.read 0, .write 0, .read 1, .write 1] = some t ∧
      LedgerKept plainDigest twoAppends none t := by
  have hrun : run (ledgerStep plainDigest twoAppends) (SharedFile.start none)
      [.read 0, .write 0, .read 1, .write 1] = some _ := rfl
  exact ⟨_, hrun, (ledgerKept_iff ⟨rfl, rfl⟩ hrun).mpr (by decide)⟩

end CompareVI.Ledger
