import Chrony.Lib.Bytes
import Chrony.Lib.SortedMerge
import Chrony.NtpSources.Table
import Mathlib.Data.List.Lex
import Mathlib.Data.List.Sort
import Mathlib.Data.Prod.Lex

/-!
# Source Directories

The reloading of source directories in `conf.c`. The sources from the files are sorted and
compared with those of the previous reload. In the first pass, sources which are not listed
anymore are removed by their configuration ID. In the second pass, new sources are added, together
with sources which could not be added before.

The files are the list of their parsed sources. The names of the sources are never `NULL`. Every
call of `NSR_AddSourceByName` has an outcome, which is an input here, and the calls made by the
reloads are kept in a log.
-/

namespace Chrony.Conf

open Lib Lib.Bytes
open NtpSources (Status)

/-- `NTP_Source_Type`. -/
inductive NtpSourceType
  | server
  | peer
  deriving DecidableEq, Repr

/-- The value of the enumeration. -/
def NtpSourceType.toInt : NtpSourceType → ℤ
  | server => 0
  | peer => 1

/-- What is specified by a line of a file: the fields of `NTP_Source` which are compared. The
`SourceParameters` are their bytes. -/
structure SourceSpec where
  name : List Byte
  type : NtpSourceType
  pool : Bool
  family : ℤ
  port : ℤ
  params : List Byte
  deriving DecidableEq

/-- `NTP_Source`. -/
structure NtpSource where
  spec : SourceSpec
  status : Status
  confId : BitVec 32
  deriving DecidableEq

/-- The result of `strcmp` and `memcmp`: the first different byte decides. -/
def compareMemory : List Byte → List Byte → ℤ
  | [], [] => 0
  | [], _ :: _ => -1
  | _ :: _, [] => 1
  | a :: as, b :: bs =>
      if a.toNat < b.toNat then -1 else if b.toNat < a.toNat then 1 else compareMemory as bs

/-- `compare_sources`. -/
def compareSources (a b : NtpSource) : ℤ :=
  if compareMemory a.spec.name b.spec.name ≠ 0 then compareMemory a.spec.name b.spec.name
  else if a.spec.type.toInt - b.spec.type.toInt ≠ 0 then a.spec.type.toInt - b.spec.type.toInt
  else if (a.spec.pool.toInt - b.spec.pool.toInt : ℤ) ≠ 0 then
    a.spec.pool.toInt - b.spec.pool.toInt
  else if a.spec.family - b.spec.family ≠ 0 then a.spec.family - b.spec.family
  else if a.spec.port - b.spec.port ≠ 0 then a.spec.port - b.spec.port
  else compareMemory a.spec.params b.spec.params

/-- `was_added` of a source of the previous reload. -/
def NtpSource.wasAdded (source : NtpSource) : Bool :=
  source.status = .success ∨ source.status = .unresolvedName

/-- The outcome of `NSR_AddSourceByName`: the status, and the ID which is assigned before the
source is added. -/
structure Outcome where
  status : Status
  confId : Option (BitVec 32)
  assigned : status = .success ∨ status = .unresolvedName → confId.isSome
  deriving DecidableEq

/-- The calls made by the reloads. -/
inductive Event
  | addSourceByName (spec : SourceSpec) (outcome : Outcome)
  | removeSourcesById (confId : BitVec 32)
  | resolveSources
  deriving DecidableEq

/-- The variables of `conf.c` used by the reloads, with the log of the calls. -/
structure State where
  ntpSources : List NtpSource
  confNtpSourcesAdded : Bool
  log : List Event

/-- `parse_source` for a line of a file. -/
def parseSource (spec : SourceSpec) : NtpSource :=
  ⟨spec, .noSuchSource, 0⟩

/-- The sources loaded again and sorted by `qsort`. Sources which compare as equal do not
differ. -/
def loadSources (files : List SourceSpec) : List NtpSource :=
  (files.map parseSource).insertionSort fun a b => compareSources a b ≤ 0

/-- The first pass of one turn: a missing source, which was added, is removed by its ID. -/
def missingId : Turn NtpSource NtpSource → Option (BitVec 32)
  | .missing prev => if prev.wasAdded then some prev.confId else none
  | _ => none

/-- Whether a source is added in the second pass of a turn. -/
def addsSource : Turn NtpSource NtpSource → Bool
  | .missing _ => false
  | .same prev _ => !prev.wasAdded
  | .extra _ => true

/-- The source with the outcome of its addition. -/
def NtpSource.add (source : NtpSource) (outcome : Outcome) : NtpSource :=
  { source with status := outcome.status, confId := outcome.confId.getD source.confId }

/-- The second pass of one turn, which returns the source with its status and ID, and the call if
it is made. -/
def addSource (outcome : Outcome) :
    Turn NtpSource NtpSource → Option NtpSource × Option Event
  | .missing _ => (none, none)
  | .same prev new =>
      let (new, event) := if prev.wasAdded then (new, none)
        else (new.add outcome, some (.addSourceByName new.spec outcome))
      -- keep unchanged sources
      (some { new with status := prev.status, confId := prev.confId }, event)
  | .extra new => (some (new.add outcome), some (.addSourceByName new.spec outcome))

/-- The second pass, with the number of the calls which were made. -/
def addSources (outcome : ℕ → Outcome) :
    ℕ → List (Turn NtpSource NtpSource) → List NtpSource × List Event
  | _, [] => ([], [])
  | n, turn :: turns =>
      let (source, event) := addSource (outcome n) turn
      let (sources, events) :=
        addSources outcome (if addsSource turn then n + 1 else n) turns
      (source.toList ++ sources, event.toList ++ events)

/-- The addition leaves a name to be resolved. -/
def Event.isUnresolved : Event → Bool
  | .addSourceByName _ outcome => outcome.status = .unresolvedName
  | _ => false

/-- The turns of both passes. -/
def turns (s : State) (files : List SourceSpec) : List (Turn NtpSource NtpSource) :=
  align compareSources s.ntpSources (loadSources files)

/-- The calls made by a reload. -/
def reloadEvents (s : State) (files : List SourceSpec) (outcome : ℕ → Outcome) : List Event :=
  let added := (addSources outcome 0 (turns s files)).2
  ((turns s files).filterMap missingId).map .removeSourcesById ++ added ++
    if added.any Event.isUnresolved then [.resolveSources] else []

/-- `reload_source_dirs`, with the outcomes of the calls of `NSR_AddSourceByName` in their
order. -/
def reloadSourceDirs (s : State) (files : List SourceSpec) (outcome : ℕ → Outcome) : State :=
  if s.confNtpSourcesAdded then
    { s with
      ntpSources := (addSources outcome 0 (turns s files)).1
      log := s.log ++ reloadEvents s files outcome }
  else s

/-- One reload, with the contents of the files and the outcomes of the calls. -/
structure Reload where
  files : List SourceSpec
  outcome : ℕ → Outcome

/-- A sequence of reloads. -/
def run (s : State) (reloads : List Reload) : State :=
  reloads.foldl (fun s r => reloadSourceDirs s r.files r.outcome) s

/-- The state after `CNF_AddSources` added the configured sources, before its reload. -/
def initial : State := ⟨[], true, []⟩

end Chrony.Conf
