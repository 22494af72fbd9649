/-
What coordinator and workers exchange about tasks (`common/protocol.py`), and where a
task's files lie (`execution/shuffle.py`).

A location is taken as `pathlib` and `urllib` see it: an anchor (drive and root, or scheme
and host) and the names below it.  Timestamps and metrics are left out.
-/
import DistributedSql.Errors
import DistributedSql.Shuffle

namespace DistributedSql

inductive AttemptState
  | created | running | succeeded | failed | canceled | lost
deriving DecidableEq, Repr

/-- The states an attempt never leaves. -/
def AttemptState.Terminal (state : AttemptState) : Prop := state ≠ .created ∧ state ≠ .running

instance (state : AttemptState) : Decidable state.Terminal :=
  inferInstanceAs (Decidable (_ ∧ _))

/-! ### Locations -/

structure Location where
  anchor : String
  parts : List String
deriving DecidableEq, Repr

/-- `_safe_segment`: a long segment is cut and marked with its digest. -/
def safeSegment (py : Python) (value : String) : String :=
  if value.length ≤ 16 then value
  else String.ofList (value.toList.take 3) ++ "-"
    ++ String.ofList ((hexText (py.sha256 value.toUTF8)).toList.take 12)

/-- `_join`. -/
def Location.join (py : Python) (base : Location) (parts : List String) : Location :=
  { base with parts := base.parts ++ parts.map (safeSegment py) }

/-- `location` with its last name replaced. -/
def Location.withName (location : Location) (name : String) : Location :=
  { location with parts := location.parts.dropLast ++ [name] }

/-- Decimal digits, padded with zeros to a width. -/
def padded (width n : ℕ) : String :=
  let digits := Nat.toDigits 10 n
  String.ofList (List.replicate (width - digits.length) '0' ++ digits)

theorem isDigit_of_mem_padded {width n : ℕ} {c : Char} (h : c ∈ (padded width n).toList) :
    c.isDigit = true := by
  rw [padded, String.toList_ofList] at h
  rcases List.mem_append.mp h with h | h
  · obtain rfl := List.eq_of_mem_replicate h
    rfl
  · exact Nat.isDigit_of_mem_toDigits (by decide) (by decide) h

theorem padded_injective (width : ℕ) : Function.Injective (padded width) := by
  have hvalue : ∀ n, Nat.ofDigitChars 10 (padded width n).toList 0 = n := by
    intro n
    rw [padded, String.toList_ofList, Nat.ofDigitChars_append, Nat.ofDigitChars_replicate_zero,
      Nat.mul_zero, Nat.ofDigitChars_ten_toDigits]
  intro n m h
  rw [← hvalue n, h, hvalue m]

/-- Names with a number at the end are told apart by what stands before it and by the number. -/
theorem numbered_inj {separator : String} (hseparator : separator.toList.getLast? = some '-')
    {text text' : String} {width n n' : ℕ}
    (h : text ++ separator ++ padded width n = text' ++ separator ++ padded width n') :
    text = text' ∧ n = n' := by
  -- the number is what stands after the last dash
  have hdigits : ∀ text n, (text ++ separator ++ padded width n).toList.reverse.takeWhile
      Char.isDigit = (padded width n).toList.reverse := by
    intro text n
    have hreverse : separator.toList.reverse.head? = some '-' := by
      rw [List.head?_reverse, hseparator]
    obtain ⟨rest, hrest⟩ := List.head?_eq_some_iff.mp hreverse
    have hall : ∀ c ∈ (padded width n).toList.reverse, c.isDigit = true := fun c hc =>
      isDigit_of_mem_padded (List.mem_reverse.mp hc)
    have hdash : ('-').isDigit = false := by decide
    rw [String.toList_append, String.toList_append, List.reverse_append, List.reverse_append, hrest,
      List.takeWhile_append_of_pos hall, List.cons_append, List.takeWhile_cons, hdash,
      if_neg Bool.false_ne_true, List.append_nil]
  have hnumber := hdigits text n
  rw [h, hdigits] at hnumber
  obtain rfl := padded_injective width (String.toList_injective (List.reverse_injective hnumber.symm))
  refine ⟨?_, rfl⟩
  have hlists := congrArg String.toList h
  rw [String.toList_append, String.toList_append, String.toList_append, String.toList_append] at hlists
  exact String.toList_injective (List.append_cancel_right (List.append_cancel_right hlists))

/-- `ShuffleStore.data_location`. -/
def dataLocation (py : Python) (root : Location) (queryId stageId taskId attemptId : String)
    (partition : ℕ) : Location :=
  root.join py [queryId, stageId, taskId, attemptId, "part-" ++ padded 5 partition ++ ".parquet"]

/-- `ShuffleStore.manifest_location`. -/
def manifestLocation (py : Python) (root : Location) (queryId stageId taskId attemptId : String) :
    Location :=
  root.join py [queryId, stageId, taskId, attemptId, "manifest.json"]

/-- The manifest lies beside the data files. -/
theorem withName_dataLocation (py : Python) (root : Location)
    (queryId stageId taskId attemptId : String) (partition : ℕ) :
    (dataLocation py root queryId stageId taskId attemptId partition).withName "manifest.json"
      = manifestLocation py root queryId stageId taskId attemptId := by
  have hname : safeSegment py "manifest.json" = "manifest.json" := if_pos (by decide)
  simp only [dataLocation, manifestLocation, Location.join, Location.withName, List.map_cons,
    List.map_nil, hname]
  congr 1
  rw [List.dropLast_append_of_ne_nil (List.cons_ne_nil _ _), List.append_assoc]
  rfl

/-! ### Tasks -/

/-- An operation of a remote task, with the part of its payload the task manager reads. -/
inductive RemoteTaskOperation
  | query | scan | unary | join
  | shuffleWrite (shuffleRoot : Location) (partitionCount : ℕ) (count_pos : 0 < partitionCount)
  | shuffleRead | sleep
deriving DecidableEq

structure RemoteTaskSubmission where
  taskId : String
  attemptId : String
  queryId : String
  stageId : String
  operation : RemoteTaskOperation
  /-- the rest of the payload, as JSON text -/
  payload : String
  outputLocation : Location
deriving DecidableEq

structure ArtifactReference where
  location : Location
  mediaType : String
  sizeBytes : ℕ
  checksum : String
  rowCount : Option ℕ

structure ShuffleFile where
  partition : ℕ
  location : Location
  rowCount : ℕ
  sizeBytes : ℕ
  checksum : String

structure ShuffleManifest where
  queryId : String
  stageId : String
  taskId : String
  attemptId : String
  files : List ShuffleFile

structure RemoteTaskResult where
  taskId : String
  attemptId : String
  workerId : String
  artifact : Option ArtifactReference := none
  shuffleManifests : List ShuffleManifest := []

structure RemoteTaskStatus where
  taskId : String
  attemptId : String
  state : AttemptState
  result : Option RemoteTaskResult := none
  error : Option ErrorDetail := none

end DistributedSql
