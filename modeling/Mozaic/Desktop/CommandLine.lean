import Mozaic.Desktop.Migration
import Mozaic.Desktop.PlayerNumbers
import Mozaic.Text.Words

/-! What a migrated bot executes. The second schema has a program and its arguments, the later
ones a command line, which is taken apart again before the bot is started. -/
namespace Mozaic.Desktop
open Rust JavaScript Outcome

/-- The bot, as it is chosen for a slot. -/
def chosenBot (bot : V4.Bot) : Bot := ⟨bot.uuid, bot.name, bot.command⟩

/-- The client runs what the bot was configured with. -/
structure Executes (params : ClientParams) (config : V2.BotConfig) : Prop where
  command : params.botConfig.command = some config.command
  args : params.botConfig.args = config.args

/-- `string-argv` splits a line at the blanks outside of quotes. From a word it takes away
nothing but quotes, if anything. -/
structure SplitsArguments (stringArgv : String → List String) (unquote : String → String) :
    Prop where
  words : ∀ line, stringArgv line = (Text.words line).map unquote
  sublist : ∀ word, (unquote word).toList.Sublist word.toList
  plain : ∀ word, word.toList.any Text.isQuote = false → unquote word = word

/-- Each of the texts is one word, which stays as it is, and none but the last leaves a
quote open. -/
structure Separable (unquote : String → String) (texts : List String) : Prop where
  solid : ∀ text ∈ texts, text ≠ "" ∧ Text.unbroken none text.toList
  kept : ∀ text ∈ texts, text.toList.any Text.isQuote → unquote text = text
  closed : ∀ text ∈ texts.dropLast, Text.openAfter none text.toList = none

variable {stringArgv : String → List String} {unquote : String → String}

/-- Without quotes, a text must not be empty and must not contain blanks. -/
theorem separable_plain_iff {texts : List String}
    (h : ∀ text ∈ texts, text.toList.any Text.isQuote = false) :
    Separable unquote texts ↔
      ∀ text ∈ texts, text ≠ "" ∧ text.toList.any Text.isSpace = false := by
  constructor
  · intro hsep text htext
    obtain ⟨hne, hunbroken⟩ := hsep.solid text htext
    exact ⟨hne, (Text.unbroken_plain (h text htext)).mp hunbroken⟩
  · intro hplain
    refine ⟨fun text htext => ?_, fun text htext hquote => ?_, fun text htext => ?_⟩
    · obtain ⟨hne, hblank⟩ := hplain text htext
      exact ⟨hne, (Text.unbroken_plain (h text htext)).mpr hblank⟩
    · rw [h text htext] at hquote
      cases hquote
    · exact Text.openAfter_plain (h text (List.mem_of_mem_dropLast htext))

theorem SplitsArguments.join_iff (h : SplitsArguments stringArgv unquote) (command : String)
    (args : List String) : stringArgv (joinCommand command args) = command :: args ↔
      Separable unquote (command :: args) := by
  rw [h.words, joinCommand, Text.words_intercalate_iff h.sublist (List.cons_ne_nil _ _)]
  constructor
  · rintro ⟨htexts, hclosed⟩
    refine ⟨fun text htext => ?_, fun text htext _ => (htexts text htext).2.2, hclosed⟩
    exact ⟨(htexts text htext).1, (htexts text htext).2.1⟩
  · intro hsep
    refine ⟨fun text htext => ⟨(hsep.solid text htext).1, (hsep.solid text htext).2, ?_⟩,
      hsep.closed⟩
    cases hquote : text.toList.any Text.isQuote with
    | false => exact h.plain text hquote
    | true => exact hsep.kept text htext hquote

section Upgrades
variable {ord : IterOrder String} {db : V2.DbSchema} {db' : V3.DbSchema} {db'' : V4.DbSchema}

/-- What two upgrades make of a bot. -/
theorem lookup_upgraded (hup : upgradeV2 ord db = .ok db') (hup' : upgradeV3 ord db' = .ok db'')
    {id : String} {bot : V2.BotData} {bot' : V4.Bot} (hbot : db.bots.own.lookup id = some bot)
    (hbot' : db''.bots.own.lookup id = some bot') : bot' = upgradeBot3 (upgradeBot2 bot) := by
  obtain ⟨-, bot₃, hbot₃, heq⟩ := (Dict.lookup_rebuild (upgradeV3_eq_ok hup').1).mp hbot'
  obtain ⟨-, bot₂, hbot₂, heq'⟩ := (Dict.lookup_rebuild (upgradeV2_eq_ok hup).1).mp hbot₃
  rw [hbot] at hbot₂
  cases hbot₂
  cases heq'
  cases heq
  rfl

end Upgrades

theorem executes_iff_argv {slot : Slot} {bot : V2.BotData}
    (hslot : slot.bot = some (chosenBot (upgradeBot3 (upgradeBot2 bot)))) {playerNum : Nat}
    {params : ClientParams} (hparams : connectLocalBot stringArgv slot playerNum = some params) :
    Executes params bot.config ↔
      stringArgv (joinCommand bot.config.command bot.config.args) =
        bot.config.command :: bot.config.args := by
  simp only [connectLocalBot, hslot, Option.bind_eq_bind, Option.bind_some,
    Option.bind_eq_some_iff, Option.pure_def, Option.some.injEq] at hparams
  obtain ⟨_, _, rfl⟩ := hparams
  have hline : (chosenBot (upgradeBot3 (upgradeBot2 bot))).command =
      joinCommand bot.config.command bot.config.args := rfl
  rw [hline]
  rcases hargv : stringArgv (joinCommand bot.config.command bot.config.args) with - | ⟨first, rest⟩
  · apply iff_of_false
    · intro h
      cases h.command
    · exact (List.cons_ne_nil _ _).symm
  · constructor
    · rintro ⟨hcommand, hargs⟩
      exact congrArg₂ List.cons (Option.some.inj hcommand) hargs
    · intro h
      obtain ⟨rfl, rfl⟩ := List.cons.inj h
      exact ⟨rfl, rfl⟩

/-- A bot that was migrated from the second schema is run with its command and its arguments
if and only if these are words that the command line keeps apart. -/
theorem migrated_executes_iff (hargv : SplitsArguments stringArgv unquote) (ord : IterOrder String)
    (db : V2.DbSchema) (db' : V3.DbSchema) (db'' : V4.DbSchema) (id : String) (bot : V2.BotData)
    (bot' : V4.Bot) (slot : Slot) (playerNum : Nat) (params : ClientParams)
    (hup : upgradeV2 ord db = .ok db') (hup' : upgradeV3 ord db' = .ok db'')
    (hbot : db.bots.own.lookup id = some bot) (hbot' : db''.bots.own.lookup id = some bot')
    (hslot : slot.bot = some (chosenBot bot'))
    (hparams : connectLocalBot stringArgv slot playerNum = some params) :
    Executes params bot.config ↔ Separable unquote (bot.config.command :: bot.config.args) := by
  cases lookup_upgraded hup hup' hbot hbot'
  rw [executes_iff_argv hslot hparams, hargv.join_iff]

/-! ## Two bots -/

section TwoBots

/-- Quotes around the whole of a word are dropped. -/
def dropQuotes (word : String) : String :=
  match word.toList with
  | [] => word
  | c :: rest =>
    if Text.isQuote c ∧ rest.getLast? = some c then .ofList rest.dropLast else word

def splitArguments (line : String) : List String := (Text.words line).map dropQuotes

theorem splitArguments_splits : SplitsArguments splitArguments dropQuotes where
  words _ := rfl
  sublist word := by
    rw [dropQuotes]
    rcases hword : word.toList with - | ⟨c, rest⟩
    · simp [hword]
    · dsimp only
      split
      · rw [String.toList_ofList]
        exact rest.dropLast_sublist.cons c
      · rw [hword]
  plain word h := by
    rw [dropQuotes]
    rcases hword : word.toList with - | ⟨c, rest⟩
    · rfl
    · rw [hword, List.any_cons, Bool.or_eq_false_iff] at h
      exact if_neg (by simp [h.1])

def pythonBot (args : List String) : V2.BotData where
  uuid := "bot"
  config := ⟨"bot", "python3", args⟩
  lastUpdatedAt := "2018-03-01"
  createdAt := "2018-03-01"
  history := []

def pythonDb (args : List String) : V2.DbSchema where
  «matches» := .empty
  bots := ⟨HashMap.collect [("bot", pythonBot args)], none⟩
  maps := .empty
  notifications := []

def pythonSlot (args : List String) : Slot where
  name := "bot"
  token := [1]
  connected := true
  clientId := some 1
  bot := some (chosenBot (upgradeBot3 (upgradeBot2 (pythonBot args))))

theorem exists_upgraded_python (args : List String) : ∃ db' db'',
    upgradeV2 .sorted (pythonDb args) = .ok db' ∧ upgradeV3 .sorted db' = .ok db'' ∧
      db''.bots.own.lookup "bot" = some (upgradeBot3 (upgradeBot2 (pythonBot args))) := by
  obtain ⟨db', hup⟩ := exists_upgradeV2 .sorted (pythonDb args)
  obtain ⟨hbots, hmatches, -, -⟩ := upgradeV2_eq_ok hup
  have hproto : "__proto__" ∉ db'.bots.own := fun hmem => ((Dict.mem_rebuild hbots).mp hmem).1 rfl
  obtain ⟨db'', hup'⟩ : ∃ db'', upgradeV3 .sorted db' = .ok db'' := by
    refine (exists_upgradeV3_iff .sorted hproto).mpr fun id m hm => ?_
    rw [hmatches] at hm
    simp [pythonDb, Dict.empty] at hm
  refine ⟨db', db'', hup, hup', (Dict.lookup_rebuild (upgradeV3_eq_ok hup').1).mpr ?_⟩
  refine ⟨by decide, _, (Dict.lookup_rebuild hbots).mpr ⟨by decide, _, ?_, rfl⟩, rfl⟩
  rfl

/-- Quotes within an argument, and a blank between them, do no harm. -/
def quotedArgs : List String := ["bot.py", "--name=\"the bot\""]

theorem migrated_executes_iff_python :
    ∃ params, connectLocalBot splitArguments (pythonSlot quotedArgs) 0 = some params ∧
      Executes params (pythonBot quotedArgs).config := by
  obtain ⟨db', db'', hup, hup', hbot'⟩ := exists_upgraded_python quotedArgs
  refine ⟨_, rfl, ?_⟩
  refine (migrated_executes_iff splitArguments_splits .sorted (pythonDb quotedArgs) db' db'' "bot"
    (pythonBot quotedArgs) _ (pythonSlot quotedArgs) 0 _ hup hup' (by rfl) hbot' rfl rfl).mpr ?_
  refine ⟨?_, ?_, ?_⟩ <;> decide +kernel

/-- A script whose name has a blank in it falls apart. -/
theorem not_executes_python :
    ∃ db' db'' bot' params, upgradeV2 .sorted (pythonDb ["my bot.py"]) = .ok db' ∧
      upgradeV3 .sorted db' = .ok db'' ∧ db''.bots.own.lookup "bot" = some bot' ∧
      SplitsArguments splitArguments dropQuotes ∧
      (pythonSlot ["my bot.py"]).bot = some (chosenBot bot') ∧
      connectLocalBot splitArguments (pythonSlot ["my bot.py"]) 0 = some params ∧
      ¬ Executes params (pythonBot ["my bot.py"]).config := by
  obtain ⟨db', db'', hup, hup', hbot'⟩ := exists_upgraded_python ["my bot.py"]
  refine ⟨db', db'', _, _, hup, hup', hbot', splitArguments_splits, rfl, rfl, fun h => ?_⟩
  have hargs : (splitArguments "python3 my bot.py").tail = ["my bot.py"] := h.args
  revert hargs
  decide +kernel

end TwoBots
end Mozaic.Desktop
