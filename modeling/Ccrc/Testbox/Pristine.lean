import Ccrc.Library.Json
import Ccrc.Library.Sha256
import Ccrc.Library.Table
import Ccrc.Library.Utf8

/-! The pristine-install store of a test box: one entry an install key, and the keys
whose directories the next install unit removes. -/

set_option autoImplicit false

namespace Ccrc.Testbox

open Library
open Library.Text (lit ofNat)

inductive PristineState where
  | present
  | missing
  | building
  | failed
  deriving DecidableEq, Repr

structure InstallInput where
  path : Text
  bytes : Bytes
  deriving DecidableEq, Repr

/-! ## The install key -/

/-- A digest in lower-case hexadecimal. -/
def hexDigest (message : Bytes) : Text :=
  (sha256 message).flatMap fun byte =>
    [Json.hexDigit (byte.toNat / 16), Json.hexDigit (byte.toNat % 16)]

/-- An input framed by its path and its length, each ended by a NUL. -/
def framedInput (input : InstallInput) : Bytes :=
  Utf8.encode (input.path ++ [0] ++ ofNat input.bytes.length ++ [0]) ++ input.bytes

def inputsDigest (inputs : List InstallInput) : Text := hexDigest (inputs.flatMap framedInput)

def installKey (inputs : List InstallInput) (node platform : Text) : Text :=
  hexDigest (Utf8.encode (lit "ccrc-testbox-install" ++ [0] ++ inputsDigest inputs ++ [0] ++
    node ++ [0] ++ platform))

/-- `INSTALL_KEY` -/
def isInstallKey (key : Text) : Bool := key.isHexOf 64

/-! ## The store -/

structure PristineEntry where
  key : Text
  /-- With `package`: no value for an install found on disk that no run has named. -/
  repository : Option Text
  package : Option Text
  inputs : List InstallInput
  node : Text
  state : PristineState
  exit : Option Int
  attempts : Nat
  nextAttemptAt : Option Int
  lastUsedAt : Int
  /-- Prepares copying this key now. -/
  copying : Nat
  deriving DecidableEq, Repr

structure PristineStore where
  node : Text
  platform : Text
  entries : List PristineEntry
  doomed : List Text
  deriving DecidableEq, Repr

def emptyStore (node platform : Text) : PristineStore :=
  { node, platform, entries := [], doomed := [] }

structure PristineSettings where
  retryMs : List Int
  keepMs : Int
  deriving DecidableEq, Repr

structure Seen where
  store : PristineStore
  key : Text
  /-- Clone the pristine install, or install in the run's own copy. -/
  present : Bool
  deriving DecidableEq, Repr

/-- The delay before the next attempt; the last one repeats. -/
def retryDelay (retryMs : List Int) (attempts : Nat) : Except Text Int :=
  if retryMs.length = 0 then .error (lit "no retry delay")
  else .ok (retryMs.getD (min (max attempts 1) retryMs.length - 1) 0)

/-- The entry of a key that no install exists for, no build queued. -/
def missingEntry (key : Text) (repository package : Option Text) (inputs : List InstallInput)
    (node : Text) (now : Int) : PristineEntry :=
  { key, repository, package, inputs, node, state := .missing, exit := none, attempts := 0
    nextAttemptAt := none, lastUsedAt := now, copying := 0 }

namespace PristineEntry

/-- The entry as a prepare that names it leaves it. -/
def usedBy (entry : PristineEntry) (repository package : Text) (inputs : List InstallInput)
    (now : Int) : PristineEntry :=
  { entry with
    repository := some repository
    package := some package
    inputs := if 0 < entry.inputs.length then entry.inputs else inputs
    lastUsedAt := now
    copying := entry.copying + if entry.state = .present then 1 else 0 }

def isFailedOf (entry : PristineEntry) (repository package : Text) : Bool :=
  entry.state = .failed && entry.repository = some repository && entry.package = some package

end PristineEntry

namespace PristineStore

def find (store : PristineStore) (key : Text) : Option PristineEntry :=
  rowOf (·.key) store.entries key

def put (store : PristineStore) (entry : PristineEntry) : PristineStore :=
  { store with
    entries :=
      if store.entries.any fun held => held.key = entry.key then
        store.entries.map fun held => if held.key = entry.key then entry else held
      else store.entries ++ [entry] }

/-- One directory found under `pristine/`. -/
def adoptOne (now : Int) (store : PristineStore) (key : Text) : PristineStore :=
  if !isInstallKey key || (store.find key).isSome then store
  else
    store.put
      { key, repository := none, package := none, inputs := [], node := store.node,
        state := .present, exit := none, attempts := 0, nextAttemptAt := none, lastUsedAt := now,
        copying := 0 }

def adopt (store : PristineStore) (keys : List Text) (now : Int) : PristineStore :=
  keys.foldl (adoptOne now) store

/-- A prepare names a package's inputs. -/
def seen (store : PristineStore) (repository package : Text) (inputs : List InstallInput)
    (now : Int) : Seen :=
  let key := installKey inputs store.node store.platform
  match store.find key with
  | some entry =>
      { store := store.put (entry.usedBy repository package inputs now)
        key
        present := entry.state = .present }
  | none =>
      let kept := store.entries.filter fun held => !held.isFailedOf repository package
      let fresh := missingEntry key repository package inputs store.node now
      { store := { store with entries := kept ++ [fresh] }, key, present := false }

/-- A prepare that cloned the key ended. -/
def copyEnded (store : PristineStore) (key : Text) : PristineStore :=
  match store.find key with
  | none => store
  | some entry => store.put { entry with copying := entry.copying - 1 }

/-- The keys to queue a build for now, in the store's order. -/
def due (store : PristineStore) (now : Int) : List Text :=
  (store.entries.filter fun entry =>
    0 < entry.inputs.length &&
      (entry.state = .missing ||
        (entry.state = .failed && entry.nextAttemptAt.getD 0 ≤ now))).map (·.key)

def buildQueued (store : PristineStore) (key : Text) : PristineStore :=
  match store.find key with
  | none => store
  | some entry => store.put { entry with state := .building }

/-- A build ended: exit 0 is present, anything else is failed. -/
def buildEnded (store : PristineStore) (key : Text) (exit now : Int) (retryMs : List Int) :
    Except Text PristineStore :=
  match store.find key with
  | none => .ok store
  | some entry =>
      if exit = 0 then
        .ok (store.put
          { entry with
            state := .present, exit := none, attempts := 0, nextAttemptAt := none
            lastUsedAt := now })
      else do
        let attempts := entry.attempts + 1
        let delay ← retryDelay retryMs attempts
        return store.put
          { entry with
            state := .failed, exit := some exit, attempts, nextAttemptAt := some (now + delay) }

/-- The keys that leave the store, unused for the keep time with no prepare copying them. -/
def expired (store : PristineStore) (now keepMs : Int) : List Text :=
  (store.entries.filter fun entry =>
    entry.state = .present && entry.copying = 0 && keepMs ≤ now - entry.lastUsedAt).map (·.key)

def expire (store : PristineStore) (now keepMs : Int) : PristineStore :=
  let old := store.expired now keepMs
  if old.length = 0 then store
  else
    { store with
      entries := store.entries.filter fun entry => !old.contains entry.key
      doomed := store.doomed ++ old.filter fun key => !store.doomed.contains key }

/-- The doomed keys that an install unit's first step removed. -/
def undoom (store : PristineStore) (keys : List Text) : PristineStore :=
  { store with doomed := store.doomed.filter fun key => !keys.contains key }

/-- One entry of the old store, its inputs queued again under the new node. -/
def renode (before : PristineStore) (node : Text) (now : Int) (next : PristineStore)
    (entry : PristineEntry) : PristineStore :=
  if entry.node ≠ before.node || entry.repository.isNone || entry.package.isNone ||
      entry.inputs.length = 0 then next
  else
    let key := installKey entry.inputs node before.platform
    if (next.find key).isSome then next
    else
      next.put (missingEntry key entry.repository entry.package entry.inputs node now)

/-- A new node version: the old keys stay until they expire. -/
def nodeChanged (store : PristineStore) (node : Text) (now : Int) : PristineStore :=
  if node = store.node then store
  else
    store.entries.foldl (renode store node now)
      { store with node, entries := store.entries.filter fun entry => entry.state ≠ .failed }

/-! ## What an entry of a key becomes -/

section Put

variable {store : PristineStore} {entry held : PristineEntry} {key : Text}

theorem find_some (found : store.find key = some entry) :
    entry ∈ store.entries ∧ entry.key = key := rowOf_some found

theorem put_of_absent (absent : store.find entry.key = none) :
    (store.put entry).entries = store.entries ++ [entry] := by
  have none := rowOf_none.mp absent
  unfold put
  rw [if_neg]
  simpa using none

theorem any_of_found {before : PristineEntry} (found : store.find key = some before) :
    store.entries.any (fun held => held.key = key) = true := by
  obtain ⟨member, same⟩ := find_some found
  exact List.any_eq_true.mpr ⟨before, member, decide_eq_true same⟩

theorem find_put (store : PristineStore) (entry : PristineEntry) (key : Text) :
    (store.put entry).find key = if entry.key = key then some entry else store.find key := by
  cases found : store.find entry.key with
  | none =>
      unfold find rowOf
      rw [put_of_absent found, List.find?_append]
      by_cases same : entry.key = key
      · subst same
        unfold find rowOf at found
        simp [found]
      · simp [same]
  | some before =>
      obtain ⟨_, same⟩ := find_some found
      unfold find put
      rw [if_pos (any_of_found found), rowOf_map (by intro row; split <;> simp_all)]
      by_cases here : entry.key = key
      · subst here
        rw [if_pos rfl, show rowOf (·.key) store.entries entry.key = some before from found,
          Option.map_some, if_pos same]
      · rw [if_neg here]
        cases other : rowOf (·.key) store.entries key with
        | none => rfl
        | some row =>
            have differs : row.key ≠ entry.key := fun equal =>
              here (equal.symm.trans (rowOf_some other).2)
            rw [Option.map_some, if_neg differs]

@[simp] theorem put_doomed (store : PristineStore) (entry : PristineEntry) :
    (store.put entry).doomed = store.doomed := rfl

theorem put_keys (store : PristineStore) (entry : PristineEntry) :
    (store.put entry).entries.map (·.key) =
      if (store.find entry.key).isSome then store.entries.map (·.key)
      else store.entries.map (·.key) ++ [entry.key] := by
  cases found : store.find entry.key with
  | none => rw [put_of_absent found]; simp
  | some before =>
      unfold put
      rw [if_pos (any_of_found found), Option.isSome_some, if_pos rfl, List.map_map]
      refine List.map_congr_left fun row _ => ?_
      by_cases here : row.key = entry.key <;> simp [here]

theorem put_distinct (entry : PristineEntry) (distinct : (store.entries.map (·.key)).Nodup) :
    ((store.put entry).entries.map (·.key)).Nodup := by
  rw [put_keys]
  split
  · exact distinct
  · next absent =>
      have fresh := rowOf_none.mp (Option.not_isSome_iff_eq_none.mp absent)
      refine List.Nodup.append distinct (List.nodup_singleton _) ?_
      simpa using fresh

/-- Of distinct keys, what a filter leaves of an entry. -/
theorem find_filter {keeps : PristineEntry → Bool} (distinct : (store.entries.map (·.key)).Nodup)
    (key : Text) :
    rowOf (·.key) (store.entries.filter keeps) key = (store.find key).filter keeps := by
  cases found : store.find key with
  | none =>
      refine rowOf_none.mpr fun row member => ?_
      exact rowOf_none.mp found row (List.mem_of_mem_filter member)
  | some entry =>
      obtain ⟨member, rfl⟩ := find_some found
      cases kept : keeps entry with
      | true =>
          rw [Option.filter_some, if_pos kept]
          exact rowOf_mem ((List.filter_sublist.map _).nodup distinct)
            (List.mem_filter.mpr ⟨member, kept⟩)
      | false =>
          rw [Option.filter_some, kept, if_neg Bool.false_ne_true]
          refine rowOf_none.mpr fun row remains same => ?_
          obtain ⟨isRow, survives⟩ := List.mem_filter.mp remains
          rw [List.inj_on_of_nodup_map distinct isRow member same, kept] at survives
          cases survives

end Put

end PristineStore

end Ccrc.Testbox
