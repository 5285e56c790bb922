/-!
# The persisted user state

The fields that `_persist` saves and the setters that change them.  A role or a
tarot session is a JSON object, of some type `J`.
-/

namespace BobbyBotique.UserState

/-- The persisted fields of `UserState`. -/
structure Fields (J : Type) where
  documentMode : Bool
  selectedDocumentId : Option Int
  awaitingCustomRoleInput : Bool
  generatedRole : Option J
  lastCustomRolePrompt : Option String
  generatingCustomRole : Bool
  lastSentMessageText : Option String
  awaitingManualRoleTitle : Bool
  awaitingManualRolePrompt : Bool
  manualRoleTitle : String
  manualRolePrompt : String
  roleDiaries : List (String × List String)
  tarotMode : Bool
  tarotSession : Option J
  deriving DecidableEq, Repr

def Fields.initial {J : Type} : Fields J :=
  ⟨false, none, false, none, none, false, none, false, false, "", "", [], false, none⟩

def diaryEntryMaxLength : Nat := 500
def maxDiaryEntriesPerRole : Nat := 20

/-- The setters of `state.py` with their arguments. -/
inductive Setter (J : Type) where
  | setDocumentMode (enabled : Bool) (documentId : Option Int)
  | clearDocumentState
  | beginCustomRoleCreation
  | setGeneratedRole (role : J)
  | clearCustomRoleState
  | setLastCustomRolePrompt (prompt : String)
  | setGeneratingCustomRole (value : Bool)
  | setLastSentMessage (text : String)
  | beginManualRoleCreation
  | setManualRoleTitle (title : String)
  | setManualRolePrompt (prompt : String)
  | finishManualRoleInput
  | clearManualRoleState
  | appendRoleDiary (roleId entry : String)
  | clearRoleDiary (roleId : String)
  | setTarotMode (enabled : Bool)
  | setTarotSession (session : Option J)
  | clearTarotSession

/-- The diary with a trimmed entry at its end, without the oldest over the limit. -/
def appendEntry (diary : List String) (entry : String) : List String :=
  let entries := diary ++ [String.ofList (entry.toList.take diaryEntryMaxLength)]
  entries.drop (entries.length - maxDiaryEntriesPerRole)

/-- `role_diaries[role_id]`, created where it is missing, gets the entry. -/
def appendDiary (diaries : List (String × List String)) (roleId entry : String) :
    List (String × List String) :=
  if (diaries.lookup roleId).isSome then
    diaries.map fun diary =>
      if diary.1 = roleId then (roleId, appendEntry diary.2 entry) else diary
  else diaries ++ [(roleId, appendEntry [] entry)]

/-- What a setter makes of the fields, where it schedules their save. -/
def Setter.apply {J : Type} (fields : Fields J) : Setter J → Option (Fields J)
  | .setDocumentMode enabled documentId => some
      { fields with
        documentMode := enabled
        selectedDocumentId := if enabled then documentId else none }
  | .clearDocumentState => some { fields with documentMode := false, selectedDocumentId := none }
  | .beginCustomRoleCreation => some
      { fields with
        awaitingCustomRoleInput := true
        generatedRole := none
        lastCustomRolePrompt := none
        generatingCustomRole := false }
  | .setGeneratedRole role => some
      { fields with generatedRole := some role, awaitingCustomRoleInput := false }
  | .clearCustomRoleState => some
      { fields with
        awaitingCustomRoleInput := false
        generatedRole := none
        lastCustomRolePrompt := none
        generatingCustomRole := false }
  | .setLastCustomRolePrompt prompt => some { fields with lastCustomRolePrompt := some prompt }
  | .setGeneratingCustomRole value => some { fields with generatingCustomRole := value }
  | .setLastSentMessage text => some { fields with lastSentMessageText := some text }
  | .beginManualRoleCreation => some
      { fields with
        awaitingManualRoleTitle := true
        awaitingManualRolePrompt := false
        manualRoleTitle := ""
        manualRolePrompt := "" }
  | .setManualRoleTitle title => some
      { fields with
        manualRoleTitle := title
        awaitingManualRoleTitle := false
        awaitingManualRolePrompt := true }
  | .setManualRolePrompt prompt => some { fields with manualRolePrompt := prompt }
  | .finishManualRoleInput => some
      { fields with awaitingManualRoleTitle := false, awaitingManualRolePrompt := false }
  | .clearManualRoleState => some
      { fields with
        awaitingManualRoleTitle := false
        awaitingManualRolePrompt := false
        manualRoleTitle := ""
        manualRolePrompt := "" }
  | .appendRoleDiary roleId entry => some
      { fields with roleDiaries := appendDiary fields.roleDiaries roleId entry }
  -- a role without a diary is left as it is, and nothing is scheduled
  | .clearRoleDiary roleId =>
    if (fields.roleDiaries.lookup roleId).isSome then some
      { fields with
        roleDiaries := fields.roleDiaries.filter fun diary => decide (diary.1 ≠ roleId) }
    else none
  | .setTarotMode enabled => some { fields with tarotMode := enabled }
  | .setTarotSession session => some { fields with tarotSession := session }
  | .clearTarotSession => some { fields with tarotMode := false, tarotSession := none }

end BobbyBotique.UserState
