import GameLauncher.Main
import GameLauncher.Pid
import GameLauncher.Proofs.SettingsHistory
import GameLauncher.Proofs.SpawnPaths
import GameLauncher.Proofs.RejectedCommandLine
import GameLauncher.Proofs.GameSearch
import GameLauncher.Proofs.LookupRules
import GameLauncher.Proofs.HandOff
import GameLauncher.Proofs.SearchedFolders
import GameLauncher.Proofs.CommandLineFailures
import GameLauncher.Proofs.ExitStatus
import GameLauncher.Proofs.LookupFailures
import GameLauncher.Proofs.GameArguments
import GameLauncher.Proofs.LogHistory
import GameLauncher.Proofs.CleanConfiguration
import GameLauncher.Proofs.NearestGame
import GameLauncher.Proofs.NestedLevel
import GameLauncher.Proofs.GameExecutable
import GameLauncher.Proofs.ScannedText
import GameLauncher.Proofs.SettingsFailures
import GameLauncher.Proofs.BaseFolder
import GameLauncher.Proofs.GameByPath
import GameLauncher.Proofs.LaunchTrace
import GameLauncher.Proofs.ProcessNumbers
import GameLauncher.Proofs.SplashContent
import GameLauncher.Proofs.MistypedSettings
import GameLauncher.Proofs.EnsuredDirectory
import GameLauncher.Proofs.ConfiguredLevel
import GameLauncher.Proofs.SearchQueue
import GameLauncher.Proofs.ReusedInterpreter
import GameLauncher.Proofs.LogSetUps
