import MultiplayerInfra.Watcher.Resync

/-
  Where the addresses in the sets of the watcher are from.

  Key definitions include:
    * `Watcher.Takes`
    * `Watcher.Sourced`

  Key theorems include:
    * `Watcher.mem_of_get?_leaderAddresses`
    * `Watcher.get?_foldl_of_mem`
    * `Watcher.sourced_step`
-/

------------------------------------------------------------
-- What a Read Collects
------------------------------------------------------------

namespace Watcher

open Py

/- An entry that the loop takes. -/
def Takes (id : String) (entry : String × String) : Prop :=
  "/leader-address".toList <:+ entry.1.toList ∧
    entry.2 ≠ "" ∧ matchIdOf entry.1 = id

theorem get?_addEntry
    (upstreams : Upstreams)
    (entry : String × String)
    (id : String) :
    (Takes id entry ∧
        (addEntry upstreams entry).get? id = some entry.2) ∨
      ¬ Takes id entry ∧
        (addEntry upstreams entry).get? id =
          upstreams.get? id := by
  unfold addEntry
  split
  · rename_i hAddress
    by_cases hId : id = matchIdOf entry.1
    · left
      refine ⟨⟨hAddress.1, hAddress.2, hId.symm⟩, ?_⟩
      rw [hId, Dict.get?_set_self]
    · right
      refine ⟨fun hTakes => hId hTakes.2.2.symm, ?_⟩
      rw [Dict.get?_set, if_neg hId]
  · rename_i hNot
    right
    exact ⟨fun hTakes => hNot ⟨hTakes.1, hTakes.2.1⟩, rfl⟩

/- An address was collected from an entry. -/
theorem mem_of_get?_foldl
    {contents : Contents}
    {upstreams : Upstreams}
    {id address : String}
    (hGet :
      (contents.foldl addEntry upstreams).get? id =
        some address) :
    upstreams.get? id = some address ∨
      ∃ key,
        (key, address) ∈ contents ∧
          Takes id (key, address) := by
  induction contents generalizing upstreams with
  | nil => exact .inl hGet
  | cons entry contents ih =>
      rcases ih hGet with hFirst | ⟨key, hMem, hTakes⟩
      · rcases get?_addEntry upstreams entry id with
          ⟨hTakes, hSet⟩ | ⟨_, hKept⟩
        · rw [hSet] at hFirst
          cases hFirst
          exact .inr ⟨entry.1, List.mem_cons_self, hTakes⟩
        · exact .inl (hKept ▸ hFirst)
      · exact
          .inr ⟨key, List.mem_cons_of_mem _ hMem, hTakes⟩

theorem mem_of_get?_leaderAddresses
    {contents : Contents}
    {id address : String}
    (hGet :
      (leaderAddresses contents).get? id = some address) :
    ∃ key,
      (key, address) ∈ contents ∧
        Takes id (key, address) := by
  rcases mem_of_get?_foldl hGet with hEmpty | hMem
  · rw [Dict.get?_empty] at hEmpty
    cases hEmpty
  · exact hMem

/- An id under which only one address is taken has it. -/
theorem get?_foldl_of_mem
    {contents : Contents}
    {upstreams : Upstreams}
    {id address : String}
    (hOnly :
      ∀ entry ∈ contents, Takes id entry →
        entry.2 = address)
    (hThere :
      upstreams.get? id = some address ∨
        ∃ entry ∈ contents, Takes id entry) :
    (contents.foldl addEntry upstreams).get? id =
      some address := by
  induction contents generalizing upstreams with
  | nil => simpa using hThere
  | cons entry contents ih =>
      refine
        ih
          (fun other hMem =>
            hOnly other (List.mem_cons_of_mem _ hMem)) ?_
      rcases get?_addEntry upstreams entry id with
        ⟨hTakes, hSet⟩ | ⟨hNot, hKept⟩
      · left
        rw [hSet, hOnly entry List.mem_cons_self hTakes]
      · rw [hKept]
        rcases hThere with hFirst | ⟨other, hMem, hTakes⟩
        · exact .inl hFirst
        · rcases List.mem_cons.mp hMem with rfl | hRest
          · exact absurd hTakes hNot
          · exact .inr ⟨other, hRest, hTakes⟩

/- `split("/")[2]` of a key of a match. -/
theorem matchIdOf_addressKey
    {id : String}
    (hSlash : '/' ∉ id.toList) :
    matchIdOf ("/match/" ++ id ++ "/leader-address") = id := by
  have hParts :
      ("/match/" ++ id ++ "/leader-address").toList =
        ['/'].intercalate
          [[], "match".toList, id.toList,
            "leader-address".toList] := by
    simp [String.toList_append, List.intercalate]
  rw [matchIdOf, hParts, List.splitOn_intercalate]
  · simp
  · simpa using hSlash
  · simp

end Watcher

------------------------------------------------------------
-- Sources
------------------------------------------------------------

namespace Watcher

open Py

/- A property of the entries that a read may take. -/
def ContentsOf
    (P : String → String → Prop)
    (contents : Contents) : Prop :=
  ∀ entry ∈ contents, ∀ id,
    Takes id entry → P id entry.2

def SetOf
    (P : String → String → Prop)
    (upstreams : Upstreams) : Prop :=
  ∀ id address,
    upstreams.get? id = some address → P id address

/- A whole text has the property; a part of one is not used. -/
def TextOf
    (P : String → String → Prop)
    (file : Option Text) : Prop :=
  ∀ upstreams,
    file = some (.whole upstreams) → SetOf P upstreams

/- What is read, kept or written has the property. -/
structure Sourced
    (P : String → String → Prop)
    (s : State) : Prop where
  etcd : ContentsOf P s.etcd
  reads : ∀ read ∈ s.reads, ContentsOf P read.contents
  pending : SetOf P s.pending
  writing : ∀ write ∈ s.writing, SetOf P write.upstreams
  temp : TextOf P s.temp
  file : TextOf P s.file

variable {P Q : String → String → Prop}

theorem setOf_empty : SetOf P Dict.empty := by
  intro id address hGet
  rw [Dict.get?_empty] at hGet
  cases hGet

theorem SetOf.mono
    {upstreams : Upstreams}
    (hSet : SetOf P upstreams)
    (hImp : ∀ id address, P id address → Q id address) :
    SetOf Q upstreams :=
  fun id address hGet => hImp id address (hSet id address hGet)

theorem TextOf.mono
    {file : Option Text}
    (hText : TextOf P file)
    (hImp : ∀ id address, P id address → Q id address) :
    TextOf Q file :=
  fun upstreams hIs => (hText upstreams hIs).mono hImp

theorem ContentsOf.mono
    {contents : Contents}
    (hContents : ContentsOf P contents)
    (hImp : ∀ id address, P id address → Q id address) :
    ContentsOf Q contents :=
  fun entry hMem id hTakes =>
    hImp id entry.2 (hContents entry hMem id hTakes)

theorem Sourced.mono
    {s : State}
    (hSourced : Sourced P s)
    (hImp : ∀ id address, P id address → Q id address) :
    Sourced Q s where
  etcd := hSourced.etcd.mono hImp
  reads := fun read hMem => (hSourced.reads read hMem).mono hImp
  pending := hSourced.pending.mono hImp
  writing := fun write hMem =>
    (hSourced.writing write hMem).mono hImp
  temp := hSourced.temp.mono hImp
  file := hSourced.file.mono hImp

/- What was collected, until the end or an exception. -/
theorem setOf_loadCurrentUpstreams
    {read : Read}
    (hContents : ContentsOf P read.contents) :
    SetOf P (loadCurrentUpstreams read) := by
  have hLeaders :
      ∀ contents, contents ⊆ read.contents →
        SetOf P (leaderAddresses contents) := by
    intro contents hSub id address hGet
    rcases mem_of_get?_leaderAddresses hGet with
      ⟨key, hMem, hTakes⟩
    exact hContents _ (hSub hMem) id hTakes
  unfold loadCurrentUpstreams
  split
  · exact hLeaders _ (List.Subset.refl _)
  · exact hLeaders _ (List.take_subset _ _)

variable {s t : State}

theorem Sourced.writing_eraseIdx
    (hSourced : Sourced P s)
    (i : Nat) :
    ∀ write ∈ s.writing.eraseIdx i, SetOf P write.upstreams :=
  fun write hMem =>
    hSourced.writing write (List.mem_of_mem_eraseIdx hMem)

theorem Sourced.writing_set
    (hSourced : Sourced P s)
    (i : Nat)
    {upstreams : Upstreams}
    (hSet : SetOf P upstreams)
    (phase : Phase) :
    ∀ write ∈ s.writing.set i ⟨upstreams, phase⟩,
      SetOf P write.upstreams := by
  intro write hMem
  rcases List.mem_or_eq_of_mem_set hMem with hOld | rfl
  · exact hSourced.writing write hOld
  · exact hSet

/- A text without a set is from nowhere. -/
theorem textOf_ne_whole
    {text : Text}
    (hNot : ∀ upstreams, text ≠ .whole upstreams) :
    TextOf P (some text) :=
  fun upstreams hIs =>
    absurd (Option.some.inj hIs) (hNot upstreams)

theorem Sourced.put
    (hSourced : Sourced P s)
    {text : Text}
    (hText : TextOf P (some text))
    (place : Place) :
    Sourced P (s.put text place) := by
  cases place with
  | temp => exact { hSourced with temp := hText }
  | file => exact { hSourced with file := hText }
  | gone => exact hSourced

theorem sourced_step
    {act : Act}
    (hSourced : Sourced P s)
    (hEtcd :
      ∀ contents, act = .etcd contents →
        ContentsOf P contents)
    (hStep : step s act = some t) :
    Sourced P t := by
  cases steps_of_step hStep with
  | @etcd contents =>
      exact
        { hSourced with etcd := hEtcd contents rfl }
  | read =>
      refine { hSourced with reads := ?_ }
      intro read hMem
      rcases List.mem_append.mp hMem with hOld | hNew
      · exact hSourced.reads read hOld
      · rw [List.mem_singleton.mp hNew]
        exact hSourced.etcd
  | @compare i read hRead =>
      have hSet :=
        setOf_loadCurrentUpstreams
          (hSourced.reads read (List.mem_of_getElem? hRead))
      have hRest :
          ∀ other ∈ s.reads.eraseIdx i,
            ContentsOf P other.contents :=
        fun other hMem =>
          hSourced.reads other (List.mem_of_mem_eraseIdx hMem)
      unfold State.compare
      split
      · exact { hSourced with reads := hRest }
      · exact
          { hSourced with reads := hRest, pending := hSet }
  | fire _ =>
      refine
        { hSourced with
          pending := setOf_empty
          writing := ?_ }
      intro write hMem
      rcases List.mem_append.mp hMem with hOld | hNew
      · exact hSourced.writing write hOld
      · rw [List.mem_singleton.mp hNew]
        exact hSourced.pending
  | @openTemp i upstreams hWriting =>
      have hSet : SetOf P upstreams :=
        hSourced.writing _ (List.mem_of_getElem? hWriting)
      exact
        { hSourced with
          writing := hSourced.writing_set i hSet _
          temp := textOf_ne_whole (fun _ => Text.noConfusion) }
  | @save i upstreams place mixed hWriting =>
      have hSet : SetOf P upstreams :=
        hSourced.writing _ (List.mem_of_getElem? hWriting)
      have hText :
          TextOf P
            (some (if mixed then .part else .whole upstreams)) := by
        intro saved hSaved
        cases mixed with
        | true => cases hSaved
        | false =>
            cases hSaved
            exact hSet
      have hPut := hSourced.put hText place
      exact
        { hPut with
          writing := hSourced.writing_set i hSet .saved }
  | @fail i upstreams phase _ _ =>
      have hRest := hSourced.writing_eraseIdx i
      cases phase with
      | opened place =>
          have hPut : Sourced P (s.put .part place) :=
            hSourced.put
              (textOf_ne_whole (fun _ => Text.noConfusion))
              place
          exact { hPut with writing := hRest }
      | _ => exact { hSourced with writing := hRest }
  | @rename i raises _ _ =>
      have hRest := hSourced.writing_eraseIdx i
      unfold State.rename
      split
      · exact { hSourced with writing := hRest }
      · refine
          { hSourced with
            writing := ?_
            temp := ?_
            file := hSourced.temp }
        · intro write hMem
          rcases List.mem_map.mp hMem with
            ⟨other, hOther, rfl⟩
          rw [other.upstreams_renamed]
          exact hRest other hOther
        · intro saved hSaved
          cases hSaved

end Watcher
