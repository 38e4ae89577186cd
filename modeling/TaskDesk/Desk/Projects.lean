import TaskDesk.Desk.Basic

/-!
# Working on projects, folders and settings

A project or folder that is deleted leaves behind what belonged to it: tasks are
then in no project, and projects in no folder.
-/

namespace TaskDesk

/-- The setting that holds the mode of the input line (`SEARCHBAR_MODE_KEY`). -/
def modeSetting : Text := "searchbar_mode".toText

namespace Desk

open Work

/-- A new project (`create_project_db`). -/
def createProject (name color description : Option Text) (folderId : Option Int) : Work Project :=
  change (Store.insertProject name color description folderId)

/-- A project goes, and its tasks stay (`delete_project_db`). The outcome tells whether
    there was one. -/
def deleteProject (id : Option Int) : Work Bool :=
  transaction do
    execute (Store.leaveProject id)
    change (Store.deleteProject id)

/-- A new folder (`create_folder_db`). -/
def createFolder (name color description : Option Text) : Work Folder :=
  change (Store.insertFolder name color description)

/-- A folder goes, and its projects stay (`delete_folder_db`). The outcome tells whether
    there was one. -/
def deleteFolder (id : Option Int) : Work Bool :=
  transaction do
    execute (Store.leaveFolder id)
    change (Store.deleteFolder id)

/-- The mode of the input line (`get_searchbar_mode`). What is no mode reads as search. -/
def inputMode : Work Mode := do
  let value ← query (Store.setting? (some modeSetting))
  return (value.bind Mode.ofName?).getD .search

/-- The mode of the input line is set, to any text (`set_searchbar_mode`). -/
def setInputMode (mode : Option Text) : Work Unit :=
  execute (Store.saveSetting (some modeSetting) mode)

end Desk
end TaskDesk
