import Mathlib.Data.List.FinRange
import Sysmon.Ebpf.BlockLatency
import Sysmon.Go.Values

/-!
# The loader

This file embeds the part of `loader.go` that works on the histogram:
`ReadHistogram` and `ResetHistogram` with their error paths, `bucketLabel` and
`isNotFound`. Both methods are programs over single map operations, since the
kernel side goes on counting between any two of them, and every operation may
fail.

The text of the error for a missing key belongs to the BPF library and is a
parameter.
-/

namespace Sysmon.Ebpf

open Sysmon.Go

structure LatencyBucket where
  label : GoString
  count : UInt64
deriving DecidableEq

def bucketLabel (i : UInt32) : GoString :=
  if i = 0 then text "<1 µs"
  else
    let lo := shiftLeft 1 (i - 1).toNat
    let hi := shiftLeft lo 1
    formatDecimal lo.toNat ++ text "–" ++ formatDecimal hi.toNat ++ text " µs"

/-- The operations of the collector on `io_latency_hist`. -/
inductive HistOp where
  | lookup (i : Fin histBuckets)
  | put (i : Fin histBuckets) (value : UInt64)
deriving DecidableEq

/-- What an operation answers: an error with its text, or a result. -/
@[reducible]
def HistOp.Answer : HistOp → Type
  | lookup _ => Except GoString UInt64
  | put _ _ => Except GoString Unit

abbrev HistProgram := Program HistOp.Answer

abbrev lookupCount (i : Fin histBuckets) : HistProgram (Except GoString UInt64) :=
  .perform (HistOp.lookup i)

abbrev putCount (i : Fin histBuckets) (value : UInt64) : HistProgram (Except GoString Unit) :=
  .perform (HistOp.put i value)

def isNotFound (errKeyNotExist : GoString) (err : Option GoString) : Bool :=
  match err with
  | none => false
  | some message => contains message errKeyNotExist

def readError (i : Fin histBuckets) (err : GoString) : GoString :=
  text "reading histogram bucket " ++ formatDecimal i.val ++ text ": " ++ err

def resetError (i : Fin histBuckets) (err : GoString) : GoString :=
  text "resetting histogram bucket " ++ formatDecimal i.val ++ text ": " ++ err

def readBucket (i : Fin histBuckets) (count : UInt64) : LatencyBucket where
  label := bucketLabel (UInt32.ofNat i.val)
  count := count

/-- The loop of `ReadHistogram` over the remaining indices, with the buckets read so far. -/
def readBuckets (errKeyNotExist : GoString) (buckets : List LatencyBucket) :
    List (Fin histBuckets) → HistProgram (Except GoString (List LatencyBucket))
  | [] => return .ok buckets
  | i :: rest => do
    match ← lookupCount i with
    | .ok count => readBuckets errKeyNotExist (buckets ++ [readBucket i count]) rest
    | .error err =>
      if isNotFound errKeyNotExist (some err) then
        readBuckets errKeyNotExist (buckets ++ [readBucket i 0]) rest
      else return .error (readError i err)

def readHistogram (errKeyNotExist : GoString) :
    HistProgram (Except GoString (List LatencyBucket)) :=
  readBuckets errKeyNotExist [] (List.finRange histBuckets)

def resetBuckets : List (Fin histBuckets) → HistProgram (Except GoString Unit)
  | [] => return .ok ()
  | i :: rest => do
    match ← putCount i 0 with
    | .ok () => resetBuckets rest
    | .error err => return .error (resetError i err)

def resetHistogram : HistProgram (Except GoString Unit) :=
  resetBuckets (List.finRange histBuckets)

/-- What an operation of the collector does to the maps; `fault` says which operations fail, and
with which error. A failed operation changes nothing. -/
def HistOp.interpret (fault : HistOp → Option GoString) :
    (operation : HistOp) → KernelState → operation.Answer × KernelState
  | lookup i, kernel =>
    match fault (lookup i) with
    | some err => (.error err, kernel)
    | none => (.ok (kernel.ioLatencyHist i), kernel)
  | put i value, kernel =>
    match fault (put i value) with
    | some err => (.error err, kernel)
    | none =>
      (.ok (), { kernel with ioLatencyHist := Function.update kernel.ioLatencyHist i value })

section Steps

theorem readBuckets_cons (errKeyNotExist : GoString) (buckets : List LatencyBucket)
    (i : Fin histBuckets) (rest : List (Fin histBuckets)) :
    readBuckets errKeyNotExist buckets (i :: rest) =
      .call (.lookup i) fun (found : Except GoString UInt64) =>
        match found with
        | .ok count => readBuckets errKeyNotExist (buckets ++ [readBucket i count]) rest
        | .error err =>
          if isNotFound errKeyNotExist (some err) then
            readBuckets errKeyNotExist (buckets ++ [readBucket i 0]) rest
          else .done (.error (readError i err)) :=
  rfl

theorem resetBuckets_cons (i : Fin histBuckets) (rest : List (Fin histBuckets)) :
    resetBuckets (i :: rest) =
      .call (.put i 0) fun (stored : Except GoString Unit) =>
        match stored with
        | .ok () => resetBuckets rest
        | .error err => .done (.error (resetError i err)) :=
  rfl

end Steps

section Uninterrupted

variable (errKeyNotExist : GoString) (fault : HistOp → Option GoString)

/-- The error that ends `ReadHistogram` at a bucket. -/
def readFailure (i : Fin histBuckets) : Option GoString :=
  (fault (.lookup i)).bind fun err =>
    if isNotFound errKeyNotExist (some err) then none else some (readError i err)

def readCount (kernel : KernelState) (i : Fin histBuckets) : UInt64 :=
  if (fault (.lookup i)).isSome then 0 else kernel.ioLatencyHist i

/-- `ReadHistogram` changes nothing. It fails at the first bucket whose lookup fails for another
reason than a missing key, and otherwise returns all buckets. -/
theorem exec_readBuckets (buckets : List LatencyBucket) (indices : List (Fin histBuckets))
    (kernel : KernelState) :
    (readBuckets errKeyNotExist buckets indices).exec (HistOp.interpret fault) kernel =
      (match indices.findSome? (readFailure errKeyNotExist fault) with
        | some err => .error err
        | none => .ok (buckets ++ indices.map fun i => readBucket i (readCount fault kernel i)),
      kernel) := by
  induction indices generalizing buckets with
  | nil => simp [readBuckets]
  | cons i rest ih =>
      rw [readBuckets_cons, Program.exec_call, List.findSome?_cons, List.map_cons]
      simp only [HistOp.interpret, readFailure, readCount]
      cases failed : fault (.lookup i) with
      | none => simp [ih, readCount]
      | some err =>
          by_cases missing : isNotFound errKeyNotExist (some err)
          · simp [missing, ih, readCount]
          · simp [missing]

/-- `ResetHistogram` clears the buckets before the first one that it fails at. -/
theorem exec_resetBuckets (indices : List (Fin histBuckets)) (kernel : KernelState) :
    (resetBuckets indices).exec (HistOp.interpret fault) kernel =
      (match indices.findSome? fun i => (fault (.put i 0)).map (resetError i) with
        | some err => .error err
        | none => .ok (),
      { kernel with
        ioLatencyHist := fun i =>
          if i ∈ indices.takeWhile fun j => (fault (.put j 0)).isNone then 0
          else kernel.ioLatencyHist i }) := by
  induction indices generalizing kernel with
  | nil => simp [resetBuckets]
  | cons i rest ih =>
      rw [resetBuckets_cons, Program.exec_call, List.findSome?_cons, List.takeWhile_cons]
      simp only [HistOp.interpret]
      cases failed : fault (.put i 0) with
      | none =>
          simp only [ih, Option.map_none, Option.isNone_none, if_true, List.mem_cons]
          congr 2
          funext j
          by_cases same : j = i <;> simp [same]
      | some err => simp

end Uninterrupted

end Sysmon.Ebpf
