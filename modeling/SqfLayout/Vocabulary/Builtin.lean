import SqfLayout.Vocabulary.Basic

/-!
# The built-in vocabulary

The commands of the language and the functions of its standard library, in their canonical spelling.

* `builtinCommands`, `builtinFunctions` — the two lists.
* `Vocabulary.builtin` — the vocabulary that they make.
-/

namespace SqfLayout

set_option maxRecDepth 8000

/-- The commands of the language. -/
def builtinCommands : List String :=
   ["if", "then", "else", "exitWith", "while", "do", "for", "from", "to", "step", "forEach",
    "forEachReversed", "switch", "case", "default", "with", "try", "catch", "throw", "waitUntil",
    "breakOut", "breakTo", "break", "continue", "continueWith", "scopeName", "exit", "call",
    "spawn", "execVM", "execFSM", "exec", "compile", "compileFinal", "compileScript",
    "preprocessFile", "preprocessFileLineNumbers", "loadFile", "fileExists", "private", "params",
    "param", "comment", "sleep", "uiSleep", "terminate", "scriptDone", "canSuspend", "isNil",
    "isNull", "nil", "true", "false", "and", "or", "not", "mod", "in", "objNull", "grpNull",
    "controlNull", "displayNull", "locationNull", "taskNull", "scriptNull", "configNull",
    "teamMemberNull", "count", "select", "apply", "findIf", "find", "pushBack", "pushBackUnique",
    "append", "deleteAt", "deleteRange", "resize", "reverse", "sort", "set", "insert",
    "arrayIntersect", "selectRandom", "selectRandomWeighted", "selectMax", "selectMin",
    "createHashMap", "createHashMapFromArray", "get", "getOrDefault", "getOrDefaultCall", "keys",
    "values", "merge", "toArray", "str", "format", "formatText", "toString", "toUpper", "toLower",
    "trim", "splitString", "joinString", "parseNumber", "parseSimpleArray", "parseText",
    "composeText", "lineBreak", "localize", "isLocalized", "toFixed", "text", "typeName",
    "isEqualTo", "isNotEqualTo", "isEqualType", "isEqualTypeAll", "isEqualTypeAny",
    "isEqualTypeArray", "isEqualTypeParams", "hashValue", "random", "floor", "ceil", "round", "abs",
    "sqrt", "sin", "cos", "tan", "asin", "acos", "atan", "atan2", "exp", "ln", "log", "min", "max",
    "pi", "deg", "rad", "linearConversion", "vectorAdd", "vectorDiff", "vectorMultiply",
    "vectorDistance", "vectorDistanceSqr", "vectorNormalized", "vectorMagnitude",
    "vectorDotProduct", "vectorCrossProduct", "vectorDir", "vectorUp", "vectorModelToWorld",
    "vectorWorldToModel", "hint", "hintC", "hintSilent", "systemChat", "sideChat", "groupChat",
    "globalChat", "vehicleChat", "commandChat", "titleText", "titleCut", "titleRsc", "cutText",
    "cutRsc", "diag_log", "diag_tickTime", "diag_fps", "diag_frameNo", "diag_activeScripts",
    "isServer", "isDedicated", "hasInterface", "isMultiplayer", "isRemoteExecuted",
    "remoteExecutedOwner", "clientOwner", "owner", "setOwner", "groupOwner", "setGroupOwner",
    "local", "remoteExec", "remoteExecCall", "publicVariable", "publicVariableServer",
    "publicVariableClient", "missionNamespace", "uiNamespace", "profileNamespace",
    "parsingNamespace", "localNamespace", "getVariable", "setVariable", "allVariables",
    "getPlayerUID", "profileName", "player", "vehicle", "objectParent", "driver", "gunner",
    "commander", "crew", "fullCrew", "group", "units", "leader", "side", "faction", "name", "rank",
    "setRank", "rating", "addRating", "score", "addScore", "west", "east", "resistance",
    "independent", "civilian", "sideLogic", "sideUnknown", "sideEnemy", "sideFriendly", "allUnits",
    "allPlayers", "allGroups", "allDead", "allMapMarkers", "playableUnits", "switchableUnits",
    "vehicles", "entities", "isPlayer", "alive", "lifeState", "setUnconscious", "damage",
    "setDamage", "getDammage", "allowDamage", "setHit", "getHit", "setHitPointDamage",
    "getHitPointDamage", "setCaptive", "captive", "setUnitPos", "unitPos", "createGroup",
    "deleteGroup", "createUnit", "joinSilent", "join", "setGroupId", "groupId", "knowsAbout",
    "reveal", "setSkill", "skill", "skillFinal", "enableAI", "disableAI", "doMove", "doStop",
    "doFollow", "doTarget", "doFire", "doWatch", "move", "commandMove", "commandTarget",
    "forceSpeed", "limitSpeed", "setBehaviour", "behaviour", "setCombatMode", "combatMode",
    "setSpeedMode", "speedMode", "setFormation", "formation", "addWaypoint", "deleteWaypoint",
    "setWaypointType", "setWaypointBehaviour", "setWaypointSpeed", "setWaypointStatements",
    "waypointPosition", "setCurrentWaypoint", "currentWaypoint", "waypoints", "getPos", "getPosATL",
    "getPosASL", "getPosASLW", "getPosWorld", "getPosVisual", "getPosASLVisual", "setPos",
    "setPosATL", "setPosASL", "setPosWorld", "position", "getDir", "setDir", "direction",
    "distance", "distance2D", "distanceSqr", "inArea", "inAreaArray", "inPolygon", "eyePos",
    "eyeDirection", "weaponDirection", "setVectorDir", "setVectorUp", "setVectorDirAndUp",
    "setVelocity", "velocity", "speed", "AGLToASL", "ASLToAGL", "ATLToASL", "ASLToATL",
    "getTerrainHeightASL", "surfaceIsWater", "surfaceType", "lineIntersects",
    "lineIntersectsSurfaces", "terrainIntersect", "worldToScreen", "screenToWorld",
    "isTouchingGround", "createVehicle", "createVehicleLocal", "createSimpleObject",
    "deleteVehicle", "nearestObject", "nearestObjects", "nearObjects", "nearEntities",
    "nearestBuilding", "typeOf", "isKindOf", "attachTo", "detach", "attachedTo", "attachedObjects",
    "hideObject", "hideObjectGlobal", "isObjectHidden", "enableSimulation",
    "enableSimulationGlobal", "setObjectTexture", "setObjectTextureGlobal", "setFuel", "fuel",
    "animate", "animationPhase", "lock", "locked", "setVehicleLock", "emptyPositions",
    "assignedVehicle", "assignAsDriver", "assignAsCargo", "moveInDriver", "moveInCargo",
    "moveInGunner", "moveInCommander", "moveOut", "unassignVehicle", "canMove", "canFire",
    "someAmmo", "allTurrets", "action", "addItem", "removeItem", "addWeapon", "removeWeapon",
    "removeAllWeapons", "addMagazine", "removeMagazine", "addBackpack", "addVest", "addUniform",
    "addHeadgear", "addGoggles", "addItemToBackpack", "addItemToVest", "addItemToUniform",
    "uniform", "vest", "backpack", "headgear", "goggles", "weapons", "magazines", "items",
    "assignedItems", "primaryWeapon", "secondaryWeapon", "handgunWeapon", "currentWeapon",
    "selectWeapon", "getUnitLoadout", "setUnitLoadout", "playMove", "playMoveNow", "switchMove",
    "playSound", "playSound3D", "playMusic", "say", "say3D", "addAction", "removeAction",
    "removeAllActions", "addEventHandler", "removeEventHandler", "removeAllEventHandlers",
    "addMissionEventHandler", "removeMissionEventHandler", "addMPEventHandler",
    "displayAddEventHandler", "ctrlAddEventHandler", "createMarker", "createMarkerLocal",
    "deleteMarker", "deleteMarkerLocal", "setMarkerPos", "setMarkerType", "setMarkerColor",
    "setMarkerText", "setMarkerShape", "setMarkerSize", "setMarkerAlpha", "setMarkerBrush",
    "setMarkerDir", "getMarkerPos", "getMarkerColor", "getMarkerType", "getMarkerSize", "markerPos",
    "markerText", "markerColor", "markerType", "allMarkers", "configFile", "missionConfigFile",
    "campaignConfigFile", "getText", "getNumber", "getArray", "isClass", "isText", "isNumber",
    "isArray", "configName", "configProperties", "configClasses", "inheritsFrom",
    "getMissionConfigValue", "getMissionPath", "time", "serverTime", "daytime", "date", "setDate",
    "skipTime", "overcast", "setOvercast", "fog", "setFog", "rain", "setRain", "worldName",
    "worldSize", "missionName", "briefingName", "endMission", "failMission", "forceEnd",
    "enableSaving", "saveGame", "productVersion", "createDialog", "closeDialog", "findDisplay",
    "displayCtrl", "ctrlSetText", "ctrlText", "ctrlShow", "ctrlEnable", "ctrlSetPosition",
    "ctrlCommit", "ctrlCreate", "ctrlDelete", "ctrlSetTextColor", "ctrlSetBackgroundColor", "lbAdd",
    "lbClear", "lbSetData", "lbData", "lbCurSel", "lbSetCurSel", "lbSize", "lbText", "lbSetValue",
    "lbValue", "getMousePosition", "safeZoneX", "safeZoneY", "safeZoneW", "safeZoneH",
    "getResolution", "openMap", "visibleMap", "disableUserInput", "showCinemaBorder", "cameraOn",
    "cameraView", "switchCamera", "camCreate", "camDestroy", "camSetPos", "camSetTarget",
    "camCommit", "camCommitted", "cameraEffect", "addCuratorEditableObjects",
    "getAssignedCuratorLogic", "assignCurator", "unassignCurator", "allCurators",
    "curatorEditableObjects"]

/-- The functions of the standard library. -/
def builtinFunctions : List String :=
   ["BIS_fnc_arrayPush", "BIS_fnc_arrayPushStack", "BIS_fnc_arrayShuffle", "BIS_fnc_arrayCompare",
    "BIS_fnc_consolidateArray", "BIS_fnc_removeIndex", "BIS_fnc_subSelect",
    "BIS_fnc_findNestedElement", "BIS_fnc_sortBy", "BIS_fnc_selectRandom",
    "BIS_fnc_selectRandomWeighted", "BIS_fnc_MP", "BIS_fnc_call", "BIS_fnc_spawn", "BIS_fnc_param",
    "BIS_fnc_error", "BIS_fnc_log", "BIS_fnc_logFormat", "BIS_fnc_addStackedEventHandler",
    "BIS_fnc_removeStackedEventHandler", "BIS_fnc_addScriptedEventHandler",
    "BIS_fnc_removeScriptedEventHandler", "BIS_fnc_callScriptedEventHandler", "BIS_fnc_relPos",
    "BIS_fnc_dirTo", "BIS_fnc_distance2D", "BIS_fnc_findSafePos", "BIS_fnc_randomPos",
    "BIS_fnc_randomPosTrigger", "BIS_fnc_nearestPosition", "BIS_fnc_inTrigger",
    "BIS_fnc_inAngleSector", "BIS_fnc_getPitchBank", "BIS_fnc_setPitchBank", "BIS_fnc_spawnGroup",
    "BIS_fnc_spawnVehicle", "BIS_fnc_initVehicle", "BIS_fnc_enemySides", "BIS_fnc_sideColor",
    "BIS_fnc_sideName", "BIS_fnc_objectSide", "BIS_fnc_setUnitInsignia", "BIS_fnc_ambientAnim",
    "BIS_fnc_ambientAnimCombat", "BIS_fnc_unitPlay", "BIS_fnc_fire", "BIS_fnc_baseWeapon",
    "BIS_fnc_compatibleItems", "BIS_fnc_itemType", "BIS_fnc_arsenal", "BIS_fnc_garage",
    "BIS_fnc_addRespawnInventory", "BIS_fnc_taskCreate", "BIS_fnc_taskSetState",
    "BIS_fnc_taskState", "BIS_fnc_taskExists", "BIS_fnc_deleteTask", "BIS_fnc_taskSetDestination",
    "BIS_fnc_addRespawnPosition", "BIS_fnc_removeRespawnPosition", "BIS_fnc_respawnTickets",
    "BIS_fnc_endMission", "BIS_fnc_endMissionServer", "BIS_fnc_showNotification",
    "BIS_fnc_dynamicText", "BIS_fnc_typeText", "BIS_fnc_textTiles", "BIS_fnc_infoText",
    "BIS_fnc_guiMessage", "BIS_fnc_holdActionAdd", "BIS_fnc_holdActionRemove", "BIS_fnc_keyCode",
    "BIS_fnc_timeToString", "BIS_fnc_secondsToString", "BIS_fnc_numberText", "BIS_fnc_getCfgData",
    "BIS_fnc_getCfgDataArray", "BIS_fnc_getCfgSubClasses", "BIS_fnc_returnConfigEntry",
    "BIS_fnc_returnParents"]

/-- **The built-in vocabulary.** -/
def Vocabulary.builtin : Vocabulary :=
  .ofLists (builtinCommands.map String.toList) (builtinFunctions.map String.toList)

end SqfLayout
