import Pi5Drivers.Display.Timing

/-! The timings that a monitor can name without describing them. The clock is in kHz. -/

namespace Pi5Drivers.Display

/-- A timing of a table. What is not mentioned is zero there. -/
def mode (videoId : BitVec 16) (clock : BitVec 32)
    (hDisplay hSyncStart hSyncEnd hTotal vDisplay vSyncStart vSyncEnd vTotal vRefresh : BitVec 16)
    (flags : BitVec 32) : Timing :=
  ⟨0, videoId, clock, hDisplay, hSyncStart, hSyncEnd, hTotal, 0, vDisplay, vSyncStart, vSyncEnd, vTotal, 0, vRefresh, flags⟩

/-- The timings that a standard timing names. -/
def dmtModes : List Timing :=
  [mode 0 31500 640 672 736 832 350 382 385 445 85 1, mode 0 31500 640 672 736 832 400 401 404 445 85 2,
    mode 0 35500 720 756 828 936 400 401 404 446 85 2, mode 0 25175 640 656 752 800 480 490 492 525 60 0,
    mode 0 31500 640 664 704 832 480 489 492 520 73 0, mode 0 31500 640 656 720 840 480 481 484 500 75 0,
    mode 0 36000 640 696 752 832 480 481 484 509 85 0, mode 0 36000 800 824 896 1024 600 601 603 625 56 3,
    mode 0 40000 800 840 968 1056 600 601 605 628 60 3, mode 0 50000 800 856 976 1040 600 637 643 666 72 3,
    mode 0 49500 800 816 896 1056 600 601 604 625 75 3, mode 0 56250 800 832 896 1048 600 601 604 631 85 3,
    mode 0 73250 800 848 880 960 600 603 607 636 120 1, mode 0 33750 848 864 976 1088 480 486 494 517 60 3,
    mode 0 44900 1024 1032 1208 1264 768 768 776 817 43 7, mode 0 65000 1024 1048 1184 1344 768 771 777 806 60 0,
    mode 0 75000 1024 1048 1184 1328 768 771 777 806 70 0, mode 0 78750 1024 1040 1136 1312 768 769 772 800 75 3,
    mode 0 94500 1024 1072 1168 1376 768 769 772 808 85 3, mode 0 115500 1024 1072 1104 1184 768 771 775 813 120 1,
    mode 0 108000 1152 1216 1344 1600 864 865 868 900 75 3, mode 0 74250 1280 1390 1430 1650 720 725 730 750 60 3,
    mode 0 68250 1280 1328 1360 1440 768 771 778 790 60 1, mode 0 79500 1280 1344 1472 1664 768 771 778 798 60 2,
    mode 0 102250 1280 1360 1488 1696 768 771 778 805 75 2, mode 0 117500 1280 1360 1496 1712 768 771 778 809 85 2,
    mode 0 140250 1280 1328 1360 1440 768 771 778 813 120 1, mode 0 71000 1280 1328 1360 1440 800 803 809 823 60 1,
    mode 0 83500 1280 1352 1480 1680 800 803 809 831 60 2, mode 0 106500 1280 1360 1488 1696 800 803 809 838 75 2,
    mode 0 122500 1280 1360 1496 1712 800 803 809 843 85 2, mode 0 146250 1280 1328 1360 1440 800 803 809 847 120 1,
    mode 0 108000 1280 1376 1488 1800 960 961 964 1000 60 3, mode 0 148500 1280 1344 1504 1728 960 961 964 1011 85 3,
    mode 0 175500 1280 1328 1360 1440 960 963 967 1017 120 1, mode 0 108000 1280 1328 1440 1688 1024 1025 1028 1066 60 3,
    mode 0 135000 1280 1296 1440 1688 1024 1025 1028 1066 75 3, mode 0 157500 1280 1344 1504 1728 1024 1025 1028 1072 85 3,
    mode 0 187250 1280 1328 1360 1440 1024 1027 1034 1084 120 1, mode 0 85500 1360 1424 1536 1792 768 771 777 795 60 3,
    mode 0 148250 1360 1408 1440 1520 768 771 776 813 120 1, mode 0 85500 1366 1436 1579 1792 768 771 774 798 60 3,
    mode 0 72000 1366 1380 1436 1500 768 769 772 800 60 3, mode 0 101000 1400 1448 1480 1560 1050 1053 1057 1080 60 1,
    mode 0 121750 1400 1488 1632 1864 1050 1053 1057 1089 60 2, mode 0 156000 1400 1504 1648 1896 1050 1053 1057 1099 75 2,
    mode 0 179500 1400 1504 1656 1912 1050 1053 1057 1105 85 2, mode 0 208000 1400 1448 1480 1560 1050 1053 1057 1112 120 1,
    mode 0 88750 1440 1488 1520 1600 900 903 909 926 60 1, mode 0 106500 1440 1520 1672 1904 900 903 909 934 60 2,
    mode 0 136750 1440 1536 1688 1936 900 903 909 942 75 2, mode 0 157000 1440 1544 1696 1952 900 903 909 948 85 2,
    mode 0 182750 1440 1488 1520 1600 900 903 909 953 120 1, mode 0 108000 1600 1624 1704 1800 900 901 904 1000 60 3,
    mode 0 162000 1600 1664 1856 2160 1200 1201 1204 1250 60 3, mode 0 175500 1600 1664 1856 2160 1200 1201 1204 1250 65 3,
    mode 0 189000 1600 1664 1856 2160 1200 1201 1204 1250 70 3, mode 0 202500 1600 1664 1856 2160 1200 1201 1204 1250 75 3,
    mode 0 229500 1600 1664 1856 2160 1200 1201 1204 1250 85 3, mode 0 268250 1600 1648 1680 1760 1200 1203 1207 1271 120 1,
    mode 0 119000 1680 1728 1760 1840 1050 1053 1059 1080 60 1, mode 0 146250 1680 1784 1960 2240 1050 1053 1059 1089 60 2,
    mode 0 187000 1680 1800 1976 2272 1050 1053 1059 1099 75 2, mode 0 214750 1680 1808 1984 2288 1050 1053 1059 1105 85 2,
    mode 0 245500 1680 1728 1760 1840 1050 1053 1059 1112 120 1, mode 0 204750 1792 1920 2120 2448 1344 1345 1348 1394 60 2,
    mode 0 261000 1792 1888 2104 2456 1344 1345 1348 1417 75 2, mode 0 333250 1792 1840 1872 1952 1344 1347 1351 1423 120 1,
    mode 0 218250 1856 1952 2176 2528 1392 1393 1396 1439 60 2, mode 0 288000 1856 1984 2208 2560 1392 1393 1396 1500 75 2,
    mode 0 356500 1856 1904 1936 2016 1392 1395 1399 1474 120 1, mode 0 148500 1920 2008 2052 2200 1080 1084 1089 1125 60 0,
    mode 0 154000 1920 1968 2000 2080 1200 1203 1209 1235 60 1, mode 0 193250 1920 2056 2256 2592 1200 1203 1209 1245 60 2,
    mode 0 245250 1920 2056 2264 2608 1200 1203 1209 1255 75 2, mode 0 281250 1920 2064 2272 2624 1200 1203 1209 1262 85 2,
    mode 0 317000 1920 1968 2000 2080 1200 1203 1209 1271 120 1, mode 0 234000 1920 2048 2256 2600 1440 1441 1444 1500 60 2,
    mode 0 297000 1920 2064 2288 2640 1440 1441 1444 1500 75 2, mode 0 380500 1920 1968 2000 2080 1440 1443 1447 1525 120 1,
    mode 0 162000 2048 2074 2154 2250 1152 1153 1156 1200 60 3, mode 0 268500 2560 2608 2640 2720 1600 1603 1609 1646 60 1,
    mode 0 348500 2560 2752 3032 3504 1600 1603 1609 1658 60 2, mode 0 443250 2560 2768 3048 3536 1600 1603 1609 1672 75 2,
    mode 0 505250 2560 2768 3048 3536 1600 1603 1609 1682 85 2, mode 0 552750 2560 2608 2640 2720 1600 1603 1609 1694 120 1,
    mode 0 556744 4096 4104 4136 4176 2160 2208 2216 2222 60 1, mode 0 556188 4096 4104 4136 4176 2160 2208 2216 2222 60 1]

/-- The timings of the bits of the established timings. -/
def establishedModes : List Timing :=
  [mode 0 40000 800 840 968 1056 600 601 605 628 60 3, mode 0 36000 800 824 896 1024 600 601 603 625 56 3,
    mode 0 31500 640 656 720 840 480 481 484 500 75 0, mode 0 31500 640 664 704 832 480 489 492 520 73 0,
    mode 0 30240 640 704 768 864 480 483 486 525 67 0, mode 0 25175 640 656 752 800 480 490 492 525 60 0,
    mode 0 35500 720 738 846 900 400 421 423 449 88 0, mode 0 28320 720 738 846 900 400 412 414 449 70 2,
    mode 0 135000 1280 1296 1440 1688 1024 1025 1028 1066 75 3, mode 0 78750 1024 1040 1136 1312 768 769 772 800 75 3,
    mode 0 75000 1024 1048 1184 1328 768 771 777 806 70 0, mode 0 65000 1024 1048 1184 1344 768 771 777 806 60 0,
    mode 0 44900 1024 1032 1208 1264 768 768 776 817 43 7, mode 0 57284 832 864 928 1152 624 625 628 667 75 0,
    mode 0 49500 800 816 896 1056 600 601 604 625 75 3, mode 0 50000 800 856 976 1040 600 637 643 666 72 3,
    mode 0 108000 1152 1216 1344 1600 864 865 868 900 75 3]

/-- The timings of the video codes of an extension block, from the first on. -/
def ctaModes : List Timing :=
  [mode 1 25175 640 656 752 800 480 490 492 525 60 16, mode 2 27000 720 736 798 858 480 489 495 525 60 16,
    mode 3 27000 720 736 798 858 480 489 495 525 60 32, mode 4 74250 1280 1390 1430 1650 720 725 730 750 60 35,
    mode 5 74250 1920 2008 2052 2200 1080 1084 1094 1125 30 39, mode 6 13500 720 739 801 858 480 488 494 525 30 1044,
    mode 7 13500 720 739 801 858 480 488 494 525 30 1060, mode 8 13500 720 739 801 858 240 244 247 262 60 1040,
    mode 9 13500 720 739 801 858 240 244 247 262 60 1056, mode 10 54000 2880 2956 3204 3432 480 488 494 525 30 20,
    mode 11 54000 2880 2956 3204 3432 480 488 494 525 30 36, mode 12 54000 2880 2956 3204 3432 240 244 247 262 60 16,
    mode 13 54000 2880 2956 3204 3432 240 244 247 262 60 32, mode 14 54000 1440 1472 1596 1716 480 489 495 525 60 16,
    mode 15 54000 1440 1472 1596 1716 480 489 495 525 60 32, mode 16 148500 1920 2008 2052 2200 1080 1084 1089 1125 60 35,
    mode 17 27000 720 732 796 864 576 581 586 625 50 16, mode 18 27000 720 732 796 864 576 581 586 625 50 32,
    mode 19 74250 1280 1720 1760 1980 720 725 730 750 50 35, mode 20 74250 1920 2448 2492 2640 1080 1084 1094 1125 25 39,
    mode 21 13500 720 732 795 864 576 580 586 625 25 1044, mode 22 13500 720 732 795 864 576 580 586 625 25 1060,
    mode 23 13500 720 732 795 864 288 290 293 312 50 1040, mode 24 13500 720 732 795 864 288 290 293 312 50 1056,
    mode 25 54000 2880 2928 3180 3456 576 580 586 625 25 20, mode 26 54000 2880 2928 3180 3456 576 580 586 625 25 36,
    mode 27 54000 2880 2928 3180 3456 288 290 293 312 50 16, mode 28 54000 2880 2928 3180 3456 288 290 293 312 50 32,
    mode 29 54000 1440 1464 1592 1728 576 581 586 625 50 16, mode 30 54000 1440 1464 1592 1728 576 581 586 625 50 32,
    mode 31 148500 1920 2448 2492 2640 1080 1084 1089 1125 50 35, mode 32 74250 1920 2558 2602 2750 1080 1084 1089 1125 24 35,
    mode 33 74250 1920 2448 2492 2640 1080 1084 1089 1125 25 35, mode 34 74250 1920 2008 2052 2200 1080 1084 1089 1125 30 35,
    mode 35 108000 2880 2944 3192 3432 480 489 495 525 60 16, mode 36 108000 2880 2944 3192 3432 480 489 495 525 60 32,
    mode 37 108000 2880 2928 3184 3456 576 581 586 625 50 16, mode 38 108000 2880 2928 3184 3456 576 581 586 625 50 32,
    mode 39 72000 1920 1952 2120 2304 1080 1126 1136 1250 25 37, mode 40 148500 1920 2448 2492 2640 1080 1084 1094 1125 50 39,
    mode 41 148500 1280 1720 1760 1980 720 725 730 750 100 35, mode 42 54000 720 732 796 864 576 581 586 625 100 16,
    mode 43 54000 720 732 796 864 576 581 586 625 100 32, mode 44 27000 720 732 795 864 576 580 586 625 50 1044,
    mode 45 27000 720 732 795 864 576 580 586 625 50 1060, mode 46 148500 1920 2008 2052 2200 1080 1084 1094 1125 60 39,
    mode 47 148500 1280 1390 1430 1650 720 725 730 750 120 35, mode 48 54000 720 736 798 858 480 489 495 525 120 16,
    mode 49 54000 720 736 798 858 480 489 495 525 120 32, mode 50 27000 720 739 801 858 480 488 494 525 60 1044,
    mode 51 27000 720 739 801 858 480 488 494 525 60 1060, mode 52 108000 720 732 796 864 576 581 586 625 200 16,
    mode 53 108000 720 732 796 864 576 581 586 625 200 32, mode 54 54000 720 732 795 864 576 580 586 625 100 1044,
    mode 55 54000 720 732 795 864 576 580 586 625 100 1060, mode 56 108000 720 736 798 858 480 489 495 525 240 16,
    mode 57 108000 720 736 798 858 480 489 495 525 240 32, mode 58 54000 720 739 801 858 480 488 494 525 120 1044,
    mode 59 54000 720 739 801 858 480 488 494 525 120 1060, mode 60 59400 1280 3040 3080 3300 720 725 730 750 24 35,
    mode 61 74250 1280 3700 3740 3960 720 725 730 750 25 35, mode 62 74250 1280 3040 3080 3300 720 725 730 750 30 35,
    mode 63 297000 1920 2008 2052 2200 1080 1084 1089 1125 120 35, mode 64 297000 1920 2448 2492 2640 1080 1084 1089 1125 100 35,
    mode 65 59400 1280 3040 3080 3300 720 725 730 750 24 51, mode 66 74250 1280 3700 3740 3960 720 725 730 750 25 51,
    mode 67 74250 1280 3040 3080 3300 720 725 730 750 30 51, mode 68 74250 1280 1720 1760 1980 720 725 730 750 50 51,
    mode 69 74250 1280 1390 1430 1650 720 725 730 750 60 51, mode 70 148500 1280 1720 1760 1980 720 725 730 750 100 51,
    mode 71 148500 1280 1390 1430 1650 720 725 730 750 120 51, mode 72 74250 1920 2558 2602 2750 1080 1084 1089 1125 24 51,
    mode 73 74250 1920 2448 2492 2640 1080 1084 1089 1125 25 51, mode 74 74250 1920 2008 2052 2200 1080 1084 1089 1125 30 51,
    mode 75 148500 1920 2448 2492 2640 1080 1084 1089 1125 50 51, mode 76 148500 1920 2008 2052 2200 1080 1084 1089 1125 60 51,
    mode 77 297000 1920 2448 2492 2640 1080 1084 1089 1125 100 51, mode 78 297000 1920 2008 2052 2200 1080 1084 1089 1125 120 51,
    mode 79 59400 1680 3040 3080 3300 720 725 730 750 24 51, mode 80 59400 1680 2908 2948 3168 720 725 730 750 25 51,
    mode 81 59400 1680 2380 2420 2640 720 725 730 750 30 51, mode 82 82500 1680 1940 1980 2200 720 725 730 750 50 51,
    mode 83 99000 1680 1940 1980 2200 720 725 730 750 60 51, mode 84 165000 1680 1740 1780 2000 720 725 730 825 100 51,
    mode 85 198000 1680 1740 1780 2000 720 725 730 825 120 51, mode 86 99000 2560 3558 3602 3750 1080 1084 1089 1100 24 51,
    mode 87 90000 2560 3008 3052 3200 1080 1084 1089 1125 25 51, mode 88 118800 2560 3328 3372 3520 1080 1084 1089 1125 30 51,
    mode 89 185625 2560 3108 3152 3300 1080 1084 1089 1125 50 51, mode 90 198000 2560 2808 2852 3000 1080 1084 1089 1100 60 51,
    mode 91 371250 2560 2778 2822 2970 1080 1084 1089 1250 100 51, mode 92 495000 2560 3108 3152 3300 1080 1084 1089 1250 120 51,
    mode 93 297000 3840 5116 5204 5500 2160 2168 2178 2250 24 35, mode 94 297000 3840 4896 4984 5280 2160 2168 2178 2250 25 35,
    mode 95 297000 3840 4016 4104 4400 2160 2168 2178 2250 30 35, mode 96 594000 3840 4896 4984 5280 2160 2168 2178 2250 50 35,
    mode 97 594000 3840 4016 4104 4400 2160 2168 2178 2250 60 35, mode 98 297000 4096 5116 5204 5500 2160 2168 2178 2250 24 67,
    mode 99 297000 4096 5064 5152 5280 2160 2168 2178 2250 25 67, mode 100 297000 4096 4184 4272 4400 2160 2168 2178 2250 30 67,
    mode 101 594000 4096 5064 5152 5280 2160 2168 2178 2250 50 67, mode 102 594000 4096 4184 4272 4400 2160 2168 2178 2250 60 67,
    mode 103 297000 3840 5116 5204 5500 2160 2168 2178 2250 24 51, mode 104 297000 3840 4896 4984 5280 2160 2168 2178 2250 25 51,
    mode 105 297000 3840 4016 4104 4400 2160 2168 2178 2250 30 51, mode 106 594000 3840 4896 4984 5280 2160 2168 2178 2250 50 51,
    mode 107 594000 3840 4016 4104 4400 2160 2168 2178 2250 60 51, mode 108 90000 1280 2240 2280 2500 720 725 730 750 48 35,
    mode 109 90000 1280 2240 2280 2500 720 725 730 750 48 51, mode 110 99000 1680 2490 2530 2750 720 725 730 750 48 51,
    mode 111 148500 1920 2558 2602 2750 1080 1084 1089 1125 48 35, mode 112 148500 1920 2558 2602 2750 1080 1084 1089 1125 48 51,
    mode 113 198000 2560 3558 3602 3750 1080 1084 1089 1100 48 51, mode 114 594000 3840 5116 5204 5500 2160 2168 2178 2250 48 35,
    mode 115 594000 4096 5116 5204 5500 2160 2168 2178 2250 48 67, mode 116 594000 3840 5116 5204 5500 2160 2168 2178 2250 48 51,
    mode 117 1188000 3840 4896 4984 5280 2160 2168 2178 2250 100 35,
    mode 118 1188000 3840 4016 4104 4400 2160 2168 2178 2250 120 35,
    mode 119 1188000 3840 4896 4984 5280 2160 2168 2178 2250 100 51,
    mode 120 1188000 3840 4016 4104 4400 2160 2168 2178 2250 120 51,
    mode 121 396000 5120 7116 7204 7500 2160 2168 2178 2200 24 51, mode 122 396000 5120 6816 6904 7200 2160 2168 2178 2200 25 51,
    mode 123 396000 5120 5784 5872 6000 2160 2168 2178 2200 30 51, mode 124 742500 5120 5866 5954 6250 2160 2168 2178 2475 48 51,
    mode 125 742500 5120 6216 6304 6600 2160 2168 2178 2250 50 51, mode 126 742500 5120 5284 5372 5500 2160 2168 2178 2250 60 51,
    mode 127 1485000 5120 6216 6304 6600 2160 2168 2178 2250 100 51]

/-- Only a timing with a video code has an aspect ratio. -/
def Timing.Plain (t : Timing) : Prop := t.videoId = 0 → t.flags &&& 0xf0 = 0

instance (t : Timing) : Decidable t.Plain := inferInstanceAs (Decidable (_ → _))

theorem plain_dmtModes : ∀ t ∈ dmtModes, t.Plain := by decide

theorem plain_establishedModes : ∀ t ∈ establishedModes, t.Plain := by decide

theorem plain_ctaModes : ∀ t ∈ ctaModes, t.Plain := by decide +kernel

end Pi5Drivers.Display
