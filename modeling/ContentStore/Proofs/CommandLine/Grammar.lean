import ContentStore.CommandLine.Invocation

/-!
Contract: which arguments bind a switch.

Owns:
- `Scan.Free`, by which nothing is bound to a word yet, and nothing that is read
  or expected will be;
- `Grammar.mem_of_bindings`, by which a switch without a letter and without a
  value is bound only if its word stands among the arguments;
- that this is so for the deletion by a collection.

Does not own: switches with values.
-/

namespace ContentStore.CommandLine

private theorem exists_of_bind_ok {Cause First Last : Type} {first : Except Cause First}
    {next : First → Except Cause Last} {last : Last} (ran : (first >>= next) = .ok last) :
    ∃ value, first = .ok value ∧ next value = .ok last := by
  cases first with
  | error cause => exact absurd ran (by simp [Bind.bind, Except.bind])
  | ok value => exact ⟨value, rfl, ran⟩

namespace Scan

/-- No value is bound to a word, and none that is pending or is still to come
belongs to it. -/
structure Free (word : String) (scan : Scan) : Prop where
  unbound : scan.bound.lookup word = none
  notPending : ∀ pending ∈ scan.pending, pending.key ≠ word
  noOperand : ∀ operand ∈ scan.operands, operand.name ≠ word

variable {word key text : String} {value : Value} {scan after : Scan}

private theorem Free.bind (free : scan.Free word) (other : key ≠ word)
    (bound : scan.bind key text = .ok after) : after.Free word := by
  unfold Scan.bind at bound
  split at bound
  · exact absurd bound (by simp)
  · rw [← Except.ok.inj bound]
    refine ⟨?_, free.notPending, free.noOperand⟩
    rw [List.lookup_cons, beq_false_of_ne other.symm]
    exact free.unbound

private theorem Free.bindValue (free : scan.Free word) (other : key ≠ word)
    (bound : scan.bindValue key value text = .ok after) : after.Free word := by
  unfold Scan.bindValue at bound
  split at bound
  · exact absurd bound (by simp)
  · exact free.bind other bound

private theorem Free.settle (free : scan.Free word) (settled : scan.settle = .ok after) :
    after.Free word := by
  unfold Scan.settle at settled
  split at settled
  · rw [← Except.ok.inj settled]
    exact free
  · exact absurd settled (by simp)
  · rename_i key value text pending
    have other : key ≠ word := free.notPending _ (by rw [pending]; rfl)
    have rest : ({ scan with pending := none } : Scan).Free word :=
      ⟨free.unbound, by simp, free.noOperand⟩
    exact rest.bindValue other settled

private theorem Free.pend (free : scan.Free word) (other : key ≠ word) (given : Option String) :
    ({ scan with pending := some ⟨key, value, given⟩ } : Scan).Free word :=
  ⟨free.unbound, by simpa using other, free.noOperand⟩

private theorem Free.readPlain (free : scan.Free word) {argument : String}
    (read : scan.readPlain argument = .ok after) : after.Free word := by
  unfold Scan.readPlain at read
  split at read
  · rename_i key value pending closed
    have other : key ≠ word := free.notPending _ (by rw [pending]; rfl)
    rw [← Except.ok.inj read]
    exact free.pend other _
  · split at read
    · exact absurd read (by simp)
    · rename_i operand rest operands
      obtain ⟨settled, done, read⟩ := exists_of_bind_ok read
      rw [← Except.ok.inj read]
      have others := free.noOperand
      rw [operands] at others
      exact ⟨(free.settle done).unbound, by simpa using others operand List.mem_cons_self,
        fun later member => others later (List.mem_cons_of_mem _ member)⟩

/-- A switch with another word leaves the word free. -/
theorem Free.readSwitch (free : scan.Free word) {switch : Switch} (other : switch.word ≠ word)
    {attached : Option String} (read : scan.readSwitch switch attached = .ok after) :
    after.Free word := by
  unfold Scan.readSwitch at read
  split at read
  · obtain ⟨settled, done, read⟩ := exists_of_bind_ok read
    split at read
    · exact absurd read (by simp [throw, throwThe, MonadExceptOf.throw, Bind.bind, Except.bind])
    · exact (free.settle done).bind other read
  · exact absurd read (by simp)
  · obtain ⟨settled, done, read⟩ := exists_of_bind_ok read
    exact (free.settle done).bindValue other read
  · obtain ⟨settled, done, read⟩ := exists_of_bind_ok read
    rw [← Except.ok.inj read]
    exact (free.settle done).pend other _

end Scan

namespace Grammar

variable {grammar : Grammar} {word : String} {scan after : Scan}

/-- Only its word calls for a switch: it has no letter, no value, and shares its
word with no operand. -/
structure IsWordOnly (grammar : Grammar) (word : String) : Prop where
  switches : ∀ switch ∈ grammar.allSwitches, switch.word = word →
    switch.letter = none ∧ switch.value = none
  operands : ∀ operand ∈ grammar.operands, operand.name ≠ word

private theorem free_readWord (only : grammar.IsWordOnly word) (free : scan.Free word)
    {symbols : List Char} (another : symbols ≠ word.toList)
    (read : grammar.readWord symbols scan = .ok after) : after.Free word := by
  unfold Grammar.readWord at read
  simp only at read
  split at read
  · rename_i switch found
    have called : switch.word = String.ofList (symbols.takeWhile (· != '=')) := by
      simpa using List.find?_some found
    by_cases same : switch.word = word
    · -- nothing can be attached to the word, so that the argument is no more than it
      obtain ⟨_, noValue⟩ := only.switches switch (List.mem_of_find?_eq_some found) same
      have parts := List.takeWhile_append_dropWhile (p := (· != '=')) (l := symbols)
      cases attached : symbols.dropWhile (· != '=') with
      | nil =>
        rw [attached, List.append_nil] at parts
        rw [parts, same] at called
        exact absurd (by rw [called, String.toList_ofList]) another
      | cons sign text =>
        unfold Scan.readSwitch at read
        rw [attached, noValue] at read
        exact absurd read (by simp)
    · exact free.readSwitch same read
  · exact absurd read (by simp)

private theorem free_readLetters (only : grammar.IsWordOnly word) (letters : List Char)
    (free : scan.Free word) (read : grammar.readLetters letters scan = .ok after) :
    after.Free word := by
  induction letters generalizing scan with
  | nil =>
    rw [← Except.ok.inj read]
    exact free
  | cons letter rest inductionHypothesis =>
    unfold Grammar.readLetters at read
    split at read
    · exact absurd read (by simp)
    · rename_i switch found
      have lettered : switch.letter = some letter := by
        simpa using List.find?_some found
      have other : switch.word ≠ word := by
        intro same
        obtain ⟨noLetter, _⟩ := only.switches switch (List.mem_of_find?_eq_some found) same
        rw [noLetter] at lettered
        exact absurd lettered (by simp)
      split at read
      · exact free.readSwitch other read
      · obtain ⟨next, first, read⟩ := exists_of_bind_ok read
        exact inductionHypothesis (free.readSwitch other first) read

/-- Only two dashes and the word bind the word. -/
theorem free_readArgument (only : grammar.IsWordOnly word) (free : scan.Free word)
    {argument : String} (another : argument ≠ "--" ++ word)
    (read : grammar.readArgument argument scan = .ok after) : after.Free word := by
  unfold Grammar.readArgument at read
  split at read
  · exact free.readPlain read
  · split at read
    · rw [← Except.ok.inj read]
      exact ⟨free.unbound, free.notPending, free.noOperand⟩
    · rename_i symbols _ spelled
      refine free_readWord only free (fun same => another ?_) read
      rw [← String.toList_inj, spelled, same, String.toList_append]
      rfl
    · exact free_readLetters only _ free read
    · exact free.readPlain read

private theorem free_scanFrom (only : grammar.IsWordOnly word) {arguments : List String}
    (absent : "--" ++ word ∉ arguments) (free : scan.Free word)
    {command : Option (String × List String)}
    (read : grammar.scanFrom arguments scan = .ok (after, command)) : after.Free word := by
  induction arguments generalizing scan with
  | nil =>
    obtain ⟨rfl, _⟩ := Prod.mk.inj (Except.ok.inj read)
    exact free
  | cons argument rest inductionHypothesis =>
    unfold Grammar.scanFrom at read
    split at read
    · obtain ⟨rfl, _⟩ := Prod.mk.inj (Except.ok.inj read)
      exact free
    · obtain ⟨next, first, read⟩ := exists_of_bind_ok read
      have another : argument ≠ "--" ++ word := fun same => absent (same ▸ List.mem_cons_self)
      exact inductionHypothesis (fun later => absent (List.mem_cons_of_mem _ later))
        (free_readArgument only free another first) read

/-- What has neither letter nor value is bound only if two dashes and its word are
one of the arguments. -/
theorem mem_of_bindings (only : grammar.IsWordOnly word) {arguments : List String}
    {bindings : Bindings} (read : grammar.bindings arguments = .ok bindings)
    (bound : (bindings.lookup word).isSome) : "--" ++ word ∈ arguments := by
  by_cases present : "--" ++ word ∈ arguments
  · exact present
  · exfalso
    obtain ⟨⟨scan, command⟩, scanned, read⟩ := exists_of_bind_ok read
    have free : scan.Free word :=
      free_scanFrom only present ⟨rfl, by simp [start], only.operands⟩ scanned
    obtain ⟨settled, done, read⟩ := exists_of_bind_ok read
    simp only at read
    split at read
    · rw [← Except.ok.inj read, (free.settle done).unbound] at bound
      exact Bool.false_ne_true bound
    · exact absurd read (by simp [throw, throwThe, MonadExceptOf.throw])

/-- The arguments of a command stand behind it. -/
theorem mem_of_scanFrom {arguments rest : List String} {name argument : String}
    (read : grammar.scanFrom arguments scan = .ok (after, some (name, rest)))
    (member : argument ∈ rest) : argument ∈ arguments := by
  induction arguments generalizing scan with
  | nil => exact absurd (Prod.mk.inj (Except.ok.inj read)).2 (by simp)
  | cons first others inductionHypothesis =>
    unfold Grammar.scanFrom at read
    split at read
    · obtain ⟨_, same⟩ := Prod.mk.inj (Except.ok.inj read)
      obtain ⟨_, rfl⟩ := Prod.mk.inj (Option.some.inj same)
      exact List.mem_cons_of_mem _ member
    · obtain ⟨next, _, read⟩ := exists_of_bind_ok read
      exact List.mem_cons_of_mem _ (inductionHypothesis read)

end Grammar

/-! ## Deletion by a collection -/

private theorem ofHelp_ne_run (words : List String) (invocation : Invocation) :
    Demand.ofHelp words ≠ .run invocation := by
  unfold Demand.ofHelp
  split
  · simp
  · split
    · simp
    · split <;> simp
  · simp

private theorem ofStop_ne_run (grammar : Grammar) (stop : Stop) (invocation : Invocation) :
    Demand.ofStop grammar stop ≠ .run invocation := by
  cases stop <;> simp [Demand.ofStop]

/-- A command that is carried out has been read from its bindings, and these from
arguments of the program. -/
theorem exists_of_ofArguments {arguments : List String} {invocation : Invocation}
    (asked : Demand.ofArguments arguments = .run invocation) :
    ∃ name grammar rest bindings, grammarOf? name = some grammar ∧
      (∀ argument ∈ rest, argument ∈ arguments) ∧ grammar.bindings rest = .ok bindings ∧
      Command.ofBindings? name bindings = some invocation.command := by
  unfold Demand.ofArguments at asked
  split at asked
  · exact absurd asked (ofStop_ne_run _ _ _)
  · exact absurd asked (by simp)
  · rename_i before name rest scanned
    split at asked
    · exact absurd asked (ofHelp_ne_run _ _)
    · unfold Demand.ofCommand at asked
      split at asked
      · exact absurd asked (by simp)
      · rename_i grammar found
        split at asked
        · exact absurd asked (ofStop_ne_run _ _ _)
        · rename_i bindings read
          split at asked
          · rename_i settled command _ isCommand
            refine ⟨name, grammar, rest, bindings, found,
              fun argument => Grammar.mem_of_scanFrom scanned, read, ?_⟩
            rw [isCommand, ← Demand.run.inj asked]
            rfl
          · exact absurd asked (by simp)

private theorem eq_collect_of_ofBindings? {name marks : String} {delete : Bool}
    {bindings : Bindings}
    (command : Command.ofBindings? name bindings = some (.collect marks delete)) :
    name = "gc" ∧ delete = (bindings.lookup deleteSwitch.word).isSome := by
  unfold Command.ofBindings? at command
  simp only at command
  split at command
  · exact absurd command (by simp)
  · exact absurd command (by simp)
  · exact absurd command (by simp)
  · exact absurd command (by simp)
  · exact absurd command (by simp)
  · obtain ⟨_, _, same⟩ := Option.map_eq_some_iff.mp command
    exact ⟨rfl, (Command.collect.inj same).2.symm⟩
  · exact absurd command (by simp)

/-- A collection deletes only if it is told to by the word for it. -/
theorem delete_mem_of_ofArguments {arguments : List String} {invocation : Invocation}
    {marks : String} (asked : Demand.ofArguments arguments = .run invocation)
    (deletes : invocation.command = .collect marks true) : "--delete" ∈ arguments := by
  obtain ⟨name, grammar, rest, bindings, found, given, read, command⟩ :=
    exists_of_ofArguments asked
  rw [deletes] at command
  obtain ⟨rfl, bound⟩ := eq_collect_of_ofBindings? command
  have only : grammar.IsWordOnly deleteSwitch.word := by
    obtain rfl : _ = grammar := Option.some.inj found
    exact ⟨by decide, by decide⟩
  exact given _ (Grammar.mem_of_bindings only read bound.symm)

end ContentStore.CommandLine
